import FlagLine.Color.Basic
/-!
# How a colour specification is read

A specification is read from its words: those of its text after a leading `+`, in small
letters. The reader walks the words once, and `on`, `bright` and the attribute words change
how the words after them are taken; the statements here say what comes out without that
walk. An attribute is switched on exactly when one of its words occurs. A background run
opens at an `on` that has a word after it and takes the words up to the next attribute or
`on`; the background is the run of the last such `on`. The foreground is the colour named at
the first place outside every background run, by a colour word or by `bright` before a base
colour. Main statement: `parse_reads_words`.
-/

namespace FlagLine.Color

/-- The words a specification is read from: those of its text after a leading `+`, in small
letters. -/
def specWords (spec : String) : List String :=
  let body := if spec.startsWith "+" then String.ofList (spec.toList.drop 1) else spec
  (Text.words (Text.lower body.toList)).map String.ofList

theorem parse_eq_readWords (spec : String) :
    parse spec =
      if spec.isEmpty then {} else readWords { combine := spec.startsWith "+" } (specWords spec) :=
  rfl

/-! ## The words of each part of a colour -/

/-- The attributes that a colour switches. -/
inductive Attribute where
  | bold
  | dim
  | italic
  | underline
  | blink
  | reverse
  | hidden
  | strikethrough
  deriving DecidableEq, Repr

/-- The words that switch an attribute on: its name, and `inverse` as well for `reverse`. -/
def Attribute.words : Attribute → List String
  | .bold => ["bold"]
  | .dim => ["dim"]
  | .italic => ["italic"]
  | .underline => ["underline"]
  | .blink => ["blink"]
  | .reverse => ["reverse", "inverse"]
  | .hidden => ["hidden"]
  | .strikethrough => ["strikethrough"]

def switch (c : Color) : Attribute → Option Bool
  | .bold => c.bold
  | .dim => c.dim
  | .italic => c.italic
  | .underline => c.underline
  | .blink => c.blink
  | .reverse => c.reverse
  | .hidden => c.hidden
  | .strikethrough => c.strikethrough

/-- Words that end a background run: the attributes and `on`. -/
def endsRun (w : String) : Bool := isAttribute w || w == "on"

/-- The background run that opens before some words: the words up to the next attribute or
`on`. -/
def runOf (ws : List String) : List String := ws.takeWhile (fun w => !endsRun w)

/-- Whether a word placed after `pre` lies in a background run: the last word of `pre` that
ends runs is an `on`. -/
def inRun (pre : List String) : Bool := pre.reverse.find? endsRun == some "on"

/-- The foreground that words name where they start: a colour word, or `bright` before a
base colour. -/
def colorAt : List String → Option String
  | [] => none
  | [w] => if isForegroundWord w then some w else none
  | w :: v :: _ =>
    if isForegroundWord w then some w
    else if w = "bright" ∧ (baseColors.lookup v).isSome then some ("bright " ++ v) else none

/-- The background run that words open where they start: an `on` with a word after it opens
the run of the words after it. -/
def runAt : List String → Option (List String)
  | "on" :: w :: rest => some (runOf (w :: rest))
  | _ => none

/-- The places of a list of words: the words before each word, and the words from it on. -/
def places (ws : List String) : List (List String × List String) :=
  (List.range ws.length).map (fun i => (ws.take i, ws.drop i))

/-- The foreground named at the first place outside every background run, where the words
follow `ctx`. -/
def foregroundAfter (ctx ws : List String) : Option String :=
  (places ws).findSome? (fun p => if inRun (ctx ++ p.1) then none else colorAt p.2)

/-- The foreground that words name: the colour named at the first place outside every
background run. -/
def foregroundOf (ws : List String) : Option String := foregroundAfter [] ws

/-- The background that words name: the run of the last `on` that has a word after it. -/
def backgroundOf (ws : List String) : Option (List String) :=
  (places ws).reverse.findSome? (fun p => runAt p.2)

/-- The shade of a background run: its words joined by spaces. -/
def runShade (run : List String) : Shade := .name (" ".intercalate run)

/-! ## Places, one word at a time -/

section Places

variable {ctx : List String} {w : String} {ws : List String}

@[simp] theorem places_nil : places [] = [] := rfl

theorem places_cons (w : String) (ws : List String) :
    places (w :: ws) = ([], w :: ws) :: (places ws).map (fun p => (w :: p.1, p.2)) := by
  simp [places, List.range_succ_eq_map, Function.comp_def]

theorem inRun_append_single (ctx : List String) (w : String) :
    inRun (ctx ++ [w]) = if endsRun w then w == "on" else inRun ctx := by
  by_cases hw : endsRun w <;> simp [inRun, hw]

theorem foregroundAfter_nil (ctx : List String) : foregroundAfter ctx [] = none := rfl

theorem foregroundAfter_cons (ctx : List String) (w : String) (ws : List String) :
    foregroundAfter ctx (w :: ws) =
      (if inRun ctx then none else colorAt (w :: ws)).or (foregroundAfter (ctx ++ [w]) ws) := by
  simp only [foregroundAfter, places_cons, List.findSome?_cons, List.findSome?_map,
    List.append_nil, Function.comp_def, List.append_assoc, List.singleton_append]
  split <;> simp_all

theorem backgroundOf_cons (w : String) (ws : List String) :
    backgroundOf (w :: ws) = (backgroundOf ws).or (runAt (w :: ws)) := by
  simp only [backgroundOf, places_cons, List.reverse_cons, List.findSome?_append,
    ← List.map_reverse, List.findSome?_map, Function.comp_def, List.findSome?_cons,
    List.findSome?_nil]
  cases runAt (w :: ws) <;> rfl

end Places

/-! ## What one word changes -/

section Steps

variable {c : Color} {w : String} {a : Attribute}

theorem isAttribute_of_mem_words (h : w ∈ a.words) : isAttribute w = true := by
  cases a <;> simp only [Attribute.words, List.mem_cons, List.not_mem_nil, or_false] at h <;>
    rcases h with rfl | rfl <;> decide

theorem not_isAttribute_of_baseColor (h : (baseColors.lookup w).isSome) : isAttribute w = false := by
  obtain ⟨p, hp, hw⟩ := List.lookup_isSome_iff.1 h
  rw [beq_iff_eq] at hw
  subst hw
  revert p
  decide

theorem switch_withAttribute (c : Color) (w : String) (a : Attribute) :
    (c.withAttribute w).switch a = if w ∈ a.words then some true else c.switch a := by
  unfold withAttribute
  split <;> cases a <;> simp_all [switch, Attribute.words]

@[simp] theorem switch_withForeground (c : Color) (s : String) (a : Attribute) :
    (c.withForeground s).switch a = c.switch a := by
  unfold withForeground; split <;> cases a <;> rfl

@[simp] theorem switch_withBackground (c : Color) (b : Option Shade) (a : Attribute) :
    ({ c with bg := b } : Color).switch a = c.switch a := by
  cases a <;> rfl

@[simp] theorem fg_withAttribute (c : Color) (w : String) : (c.withAttribute w).fg = c.fg := by
  unfold withAttribute; split <;> rfl

@[simp] theorem bg_withAttribute (c : Color) (w : String) : (c.withAttribute w).bg = c.bg := by
  unfold withAttribute; split <;> rfl

@[simp] theorem combine_withAttribute (c : Color) (w : String) :
    (c.withAttribute w).combine = c.combine := by
  unfold withAttribute; split <;> rfl

theorem fg_withForeground (c : Color) (s : String) : (c.withForeground s).fg = c.fg.or (some (.name s)) := by
  unfold withForeground; cases h : c.fg <;> simp [h]

@[simp] theorem bg_withForeground (c : Color) (s : String) : (c.withForeground s).bg = c.bg := by
  unfold withForeground; split <;> rfl

@[simp] theorem combine_withForeground (c : Color) (s : String) :
    (c.withForeground s).combine = c.combine := by
  unfold withForeground; split <;> rfl

end Steps

/-! ## Words by what they do -/

section Words

variable {w v : String} {rest : List String}

theorem attribute_not_foreground (h : isAttribute w = true) :
    isForegroundWord w = false ∧ w ≠ "bright" := by
  have hmem : w ∈ attributeWords := by simpa [isAttribute] using h
  clear h
  revert w
  decide +kernel

theorem colorAt_cons_of_foreground (h : isForegroundWord w = true) (rest : List String) :
    colorAt (w :: rest) = some w := by
  cases rest <;> simp [colorAt, h]

theorem colorAt_bright (hv : (baseColors.lookup v).isSome) (rest : List String) :
    colorAt ("bright" :: v :: rest) = some ("bright " ++ v) := by
  have hb : isForegroundWord "bright" = false := by decide +kernel
  simp [colorAt, hb, hv]

/-- A word that is no colour word names no foreground unless it is `bright` before a base
colour. -/
theorem colorAt_cons_eq_none (hf : isForegroundWord w = false)
    (hb : ¬(w == "bright" && ((baseColors.lookup (rest.headD "")).isSome && !rest.isEmpty)) = true) :
    colorAt (w :: rest) = none := by
  cases rest with
  | nil => simp [colorAt, hf]
  | cons v rest =>
    simp only [List.headD_cons, List.isEmpty_cons, Bool.not_false, Bool.and_true, Bool.and_eq_true,
      beq_iff_eq] at hb
    simp only [colorAt, hf, Bool.false_eq_true, if_false, if_neg hb]

theorem colorAt_attribute (h : isAttribute w = true) (rest : List String) :
    colorAt (w :: rest) = none := by
  obtain ⟨hf, hb⟩ := attribute_not_foreground h
  exact colorAt_cons_eq_none hf (by simp [hb])

theorem runAt_cons_of_ne (hw : w ≠ "on") (rest : List String) : runAt (w :: rest) = none := by
  unfold runAt; split <;> simp_all

theorem runAt_on (v : String) (rest : List String) :
    runAt ("on" :: v :: rest) = some (runOf (v :: rest)) := rfl

theorem backgroundOf_cons_of_ne (hw : w ≠ "on") (rest : List String) :
    backgroundOf (w :: rest) = backgroundOf rest := by
  rw [backgroundOf_cons, runAt_cons_of_ne hw, Option.or_none]

theorem backgroundOf_on_last : backgroundOf ["on"] = none := rfl

theorem backgroundOf_on (hne : rest ≠ []) :
    backgroundOf ("on" :: rest) = (backgroundOf rest).or (some (runOf rest)) := by
  obtain ⟨v, rest, rfl⟩ := List.exists_cons_of_ne_nil hne
  rw [backgroundOf_cons, runAt_on]

theorem runOf_cons_of_endsRun (hw : endsRun w = true) (rest : List String) :
    runOf (w :: rest) = [] := by
  simp [runOf, hw]

theorem runOf_cons_of_not_endsRun (hw : endsRun w = false) (rest : List String) :
    runOf (w :: rest) = w :: runOf rest := by
  simp [runOf, hw]

theorem ne_on_of_attribute (h : isAttribute w = true) : w ≠ "on" := by
  rintro rfl; exact absurd h (by decide)

end Words

/-! ## Reading, step by step -/

/-- The colour `r` read from the words `ws`, which follow `ctx`, over the colour `c`: it
combines as `c` does, the attributes of the words are switched on over those of `c`, and
unless `c` has a foreground it takes the first one named outside a background run. -/
structure ReadOver (c : Color) (ctx ws : List String) (r : Color) : Prop where
  combine : r.combine = c.combine
  switch : ∀ a, r.switch a = if ∃ w ∈ ws, w ∈ a.words then some true else c.switch a
  fg : r.fg = c.fg.or ((foregroundAfter ctx ws).map .name)

namespace ReadOver

variable {c r : Color} {ctx rest : List String} {w v : String}

theorem nil (ctx : List String) (b : Option Shade) : ReadOver c ctx [] { c with bg := b } where
  combine := rfl
  switch a := by simp
  fg := by simp [foregroundAfter_nil]

theorem of_bg {b : Option Shade} {ws : List String} (h : ReadOver { c with bg := b } ctx ws r) :
    ReadOver c ctx ws r where
  combine := h.combine
  switch a := by simpa using h.switch a
  fg := h.fg

/-- A word that switches nothing and names no foreground where it stands is passed over. -/
theorem skip (hw : isAttribute w = false) (hfg : inRun ctx = true ∨ colorAt (w :: rest) = none)
    (h : ReadOver c (ctx ++ [w]) rest r) : ReadOver c ctx (w :: rest) r where
  combine := h.combine
  switch a := by
    have hm : w ∉ a.words := fun hm => by simp [isAttribute_of_mem_words hm] at hw
    rw [h.switch a]
    simp [hm]
  fg := by
    rw [h.fg, foregroundAfter_cons]
    rcases hfg with h' | h' <;> simp [h']

theorem attributeWord (hw : isAttribute w = true) (h : ReadOver (c.withAttribute w) (ctx ++ [w]) rest r) :
    ReadOver c ctx (w :: rest) r where
  combine := by rw [h.combine, combine_withAttribute]
  switch a := by
    rw [h.switch a, switch_withAttribute]
    by_cases hm : w ∈ a.words <;> simp [hm]
  fg := by rw [h.fg, fg_withAttribute, foregroundAfter_cons, colorAt_attribute hw]; simp

/-- A colour word outside a background run names the foreground, unless one is named. -/
theorem foreground (hw : isForegroundWord w = true) (hctx : inRun ctx = false)
    (h : ReadOver (c.withForeground w) (ctx ++ [w]) rest r) : ReadOver c ctx (w :: rest) r where
  combine := by rw [h.combine, combine_withForeground]
  switch a := by
    have hm : w ∉ a.words := fun hm => by
      simp [(attribute_not_foreground (isAttribute_of_mem_words hm)).1] at hw
    rw [h.switch a, switch_withForeground]
    simp [hm]
  fg := by
    rw [h.fg, fg_withForeground, foregroundAfter_cons, hctx, colorAt_cons_of_foreground hw]
    cases c.fg <;> rfl

/-- `bright` before a base colour outside a background run names the bright colour as the
foreground, unless one is named, and the base colour is read with it. -/
theorem bright (hv : (baseColors.lookup v).isSome) (hctx : inRun ctx = false)
    (h : ReadOver (c.withForeground ("bright " ++ v)) (ctx ++ ["bright", v]) rest r) :
    ReadOver c ctx ("bright" :: v :: rest) r where
  combine := by rw [h.combine, combine_withForeground]
  switch a := by
    have hb : "bright" ∉ a.words := fun hm => absurd (isAttribute_of_mem_words hm) (by decide)
    have hm : v ∉ a.words := fun hm =>
      absurd (isAttribute_of_mem_words hm) (by simp [not_isAttribute_of_baseColor hv])
    rw [h.switch a, switch_withForeground]
    simp [hb, hm]
  fg := by
    rw [h.fg, fg_withForeground, foregroundAfter_cons, hctx, colorAt_bright hv]
    cases c.fg <;> rfl

end ReadOver

/-! ## Reading a whole specification -/

section Run

variable {ctx : List String} {w : String}

theorem inRun_append_of_not_endsRun (hw : endsRun w = false) : inRun (ctx ++ [w]) = inRun ctx := by
  rw [inRun_append_single, hw, if_neg Bool.false_ne_true]

theorem inRun_append_of_attribute (hw : isAttribute w = true) : inRun (ctx ++ [w]) = false := by
  rw [inRun_append_single, if_pos (by simp [endsRun, hw])]
  simpa using ne_on_of_attribute hw

theorem inRun_append_on (ctx : List String) : inRun (ctx ++ ["on"]) = true := by
  rw [inRun_append_single, if_pos (by simp [endsRun])]
  rfl

theorem endsRun_of_plain (ha : ¬isAttribute w = true) (hw : w ≠ "on") : endsRun w = false := by
  simp_all [endsRun]

theorem on_plain : isAttribute "on" = false ∧ isForegroundWord "on" = false := by decide +kernel

/-- Reading words over a colour, outside a background run or inside one that has collected
the words `acc`: the reading is as `ReadOver` says, and the background is the run of the last
`on` in the words that has a word after it, or else the colour's own outside a run and the
run being read inside one. -/
theorem read_spec :
    (∀ c ws ctx, inRun ctx = false →
      ReadOver c ctx ws (readWords c ws) ∧
        (readWords c ws).bg = ((backgroundOf ws).map runShade).or c.bg) ∧
    (∀ c acc ws ctx, inRun ctx = true →
      ReadOver c ctx ws (readBackground c acc ws) ∧
        (readBackground c acc ws).bg = some (runShade ((backgroundOf ws).getD (acc ++ runOf ws)))) := by
  refine readWords.mutual_induct _ _ ?_ ?_ ?_ ?_ ?_ ?_ ?_ ?_ ?_ ?_
  · intro c ctx _
    rw [readWords]
    exact ⟨ReadOver.nil ctx c.bg, by simp [backgroundOf]⟩
  · intro c w rest h ih ctx _
    rw [readWords, if_pos h]
    obtain ⟨hr, hbg⟩ := ih (ctx ++ [w]) (inRun_append_of_attribute h)
    exact ⟨hr.attributeWord h, by
      rw [hbg, backgroundOf_cons_of_ne (ne_on_of_attribute h), bg_withAttribute]⟩
  · intro c w rest ha hon ih ctx _
    obtain ⟨rfl, hne⟩ : w = "on" ∧ rest ≠ [] := by simpa using hon
    rw [readWords, if_neg ha, if_pos hon]
    obtain ⟨hr, hbg⟩ := ih (ctx ++ ["on"]) (inRun_append_on ctx)
    refine ⟨hr.skip on_plain.1 (.inr (colorAt_cons_eq_none on_plain.2 (by simp))), ?_⟩
    rw [hbg, backgroundOf_on hne]
    cases backgroundOf rest <;> rfl
  · intro c w rest ha hon hb ih ctx hctx
    obtain ⟨rfl, v, rest, rfl, hv⟩ : w = "bright" ∧ ∃ v rest', rest = v :: rest' ∧
        (baseColors.lookup v).isSome := by
      obtain ⟨hw, hv, hne⟩ := by simpa using hb
      obtain ⟨v, rest', rfl⟩ := List.exists_cons_of_ne_nil hne
      exact ⟨hw, v, rest', rfl, by simpa using hv⟩
    rw [readWords, if_neg ha, if_neg hon, if_pos hb]
    have hvp : endsRun v = false :=
      endsRun_of_plain (by simp [not_isAttribute_of_baseColor hv])
        (fun h => by subst h; exact absurd hv (by decide))
    have hctx' : inRun (ctx ++ ["bright", v]) = false := by
      rw [show ctx ++ ["bright", v] = ctx ++ ["bright"] ++ [v] by simp,
        inRun_append_of_not_endsRun hvp, inRun_append_of_not_endsRun (by decide), hctx]
    obtain ⟨hr, hbg⟩ := ih (ctx ++ ["bright", v]) hctx'
    refine ⟨hr.bright hv hctx, ?_⟩
    rw [hbg, bg_withForeground, backgroundOf_cons_of_ne (by decide),
      backgroundOf_cons_of_ne (fun h => by simp [endsRun, h] at hvp)]
    rfl
  · intro c w rest ha hon hb ih ctx hctx
    rw [dite_eq_ite] at ih
    rw [readWords, if_neg ha, if_neg hon, if_neg hb]
    by_cases hw : w = "on"
    · subst hw
      obtain rfl : rest = [] := by simpa using hon
      rw [if_neg (by simp [on_plain.2]), readWords]
      exact ⟨ReadOver.skip on_plain.1 (.inr (colorAt_cons_eq_none on_plain.2 (by simp)))
        (ReadOver.nil _ c.bg), by rw [backgroundOf_on_last]; rfl⟩
    have hctx' : inRun (ctx ++ [w]) = false := by
      rw [inRun_append_of_not_endsRun (endsRun_of_plain ha hw), hctx]
    obtain ⟨hr, hbg⟩ := ih (ctx ++ [w]) hctx'
    by_cases hf : isForegroundWord w
    · rw [if_pos hf] at hr hbg ⊢
      exact ⟨hr.foreground hf hctx, by rw [hbg, bg_withForeground, backgroundOf_cons_of_ne hw]⟩
    · rw [if_neg hf] at hr hbg ⊢
      exact ⟨hr.skip (by simpa using ha) (.inr (colorAt_cons_eq_none (by simpa using hf) hb)),
        by rw [hbg, backgroundOf_cons_of_ne hw]⟩
  · intro c acc ctx _
    rw [readBackground]
    exact ⟨ReadOver.nil ctx _, by simp [backgroundOf, runOf, runShade]⟩
  · intro c acc w rest c' h ih ctx _
    rw [readBackground, if_pos h]
    obtain ⟨hr, hbg⟩ := ih (ctx ++ [w]) (inRun_append_of_attribute h)
    refine ⟨(hr.attributeWord h).of_bg, ?_⟩
    rw [hbg, bg_withAttribute, backgroundOf_cons_of_ne (ne_on_of_attribute h),
      runOf_cons_of_endsRun (by simp [endsRun, h]), List.append_nil]
    cases backgroundOf rest <;> rfl
  · intro c acc w rest ha hon hlast ctx hctx
    obtain ⟨rfl, rfl⟩ : w = "on" ∧ rest = [] := by simp_all
    rw [readBackground, if_neg ha, if_pos hon, if_pos hlast]
    refine ⟨ReadOver.skip on_plain.1 (.inl hctx) (ReadOver.nil _ _), ?_⟩
    rw [backgroundOf_on_last, runOf_cons_of_endsRun (by simp [endsRun]), List.append_nil]
    rfl
  · intro c acc w rest c' ha hon hlast ih ctx hctx
    obtain rfl : w = "on" := by simpa using hon
    have hne : rest ≠ [] := by simpa using hlast
    rw [readBackground, if_neg ha, if_pos hon, if_neg hlast]
    obtain ⟨hr, hbg⟩ := ih (ctx ++ ["on"]) (inRun_append_on ctx)
    refine ⟨(hr.skip on_plain.1 (.inl hctx)).of_bg, ?_⟩
    rw [hbg, backgroundOf_on hne, runOf_cons_of_endsRun (by simp [endsRun])]
    cases backgroundOf rest <;> rfl
  · intro c acc w rest ha hon ih ctx hctx
    have hw : w ≠ "on" := by simpa using hon
    rw [readBackground, if_neg ha, if_neg hon]
    obtain ⟨hr, hbg⟩ := ih (ctx ++ [w])
      (by rw [inRun_append_of_not_endsRun (endsRun_of_plain ha hw), hctx])
    refine ⟨hr.skip (by simpa using ha) (.inl hctx), ?_⟩
    rw [hbg, backgroundOf_cons_of_ne hw, runOf_cons_of_not_endsRun (endsRun_of_plain ha hw),
      List.append_assoc, List.singleton_append]

end Run

/-- A colour specification is read as its words say, whatever their order: it combines
exactly when it starts with `+`; an attribute is switched on exactly when one of its words is
a word of the specification, and unset otherwise; the foreground is the colour named at the
first place outside every background run, by a colour word, a `#` word, a number or `bright`
before a base colour; and the background is the run of the last `on` that has a word after it,
its words joined by spaces. -/
theorem parse_reads_words (spec : String) :
    (parse spec).combine = spec.startsWith "+" ∧
    (∀ a, (parse spec).switch a = if ∃ w ∈ specWords spec, w ∈ a.words then some true else none) ∧
    (parse spec).fg = (foregroundOf (specWords spec)).map .name ∧
    (parse spec).bg = (backgroundOf (specWords spec)).map runShade := by
  rw [parse_eq_readWords]
  by_cases he : spec.isEmpty
  · obtain rfl : spec = "" := by simpa using he
    have hw : specWords "" = [] := by decide +kernel
    rw [if_pos he, hw]
    refine ⟨by decide, fun a => ?_, rfl, rfl⟩
    cases a <;> simp [switch]
  · obtain ⟨hr, hbg⟩ := read_spec.1 { combine := spec.startsWith "+" } (specWords spec) [] rfl
    rw [if_neg he]
    refine ⟨hr.combine, fun a => ?_, ?_, ?_⟩
    · rw [hr.switch a]
      cases a <;> rfl
    · simp only [hr.fg, foregroundOf, Option.none_or]
    · rw [hbg]
      cases backgroundOf (specWords spec) <;> rfl

example : parse "+Bright RED on on black underline" =
    { fg := some (.name "bright red"), bg := some (.name "black"), underline := some true,
      combine := true } := by
  decide +kernel

end FlagLine.Color
