import FlagLine.Proofs.Token.Rebuild
/-!
# Reading words joined by single spaces

Words joined by single spaces are read back as themselves exactly when each is a bare word of
its own characters: it is not empty, holds no blank and no quote, and no backslash of the line
escapes the character after it. Outside quotes a backslash escapes a blank, a quote and another
backslash; before any other character, or at the end of the line, it stands for itself, so a
word may end with a backslash only at the end of the line.

The converse half counts characters. Reading drops quotes and escaping backslashes, and two
words lie a blank apart unless the first is a quoted token, so the words of a text joined by
single spaces are never longer than the text (`join_values_length_le`). When the words read
from a line of joined words are those words, the bound is met exactly, so the first word is read
without dropping anything; and a bare scan that drops nothing has read characters that are no
blank and no quote, whose backslashes escape nothing (`scanBare_of_length_eq`).
Main statement: `tokensFrom_join_iff`, and `tokenize_intercalate_iff` for strings.
-/

namespace FlagLine

/-- Whether no backslash of a text, read outside quotes, escapes the character after it: each
backslash is followed by a character that it does not escape, or ends the text. -/
def escapesNothing : List Char → Bool
  | [] => true
  | c :: r =>
    if c = '\\' then
      match r with
      | [] => true
      | d :: _ => !Tokenize.isBareEscape d && escapesNothing r
    else escapesNothing r

/-- A character that stands for itself in a bare word, as a backslash that escapes nothing
does: no blank and no quote. -/
def Tokenize.isWordChar (c : Char) : Bool := !(c == ' ' || c == '\t' || isQuoteChar c)

/-- Whether a word, followed by a blank or the end of the line, is read bare as itself once
its backslashes escape nothing: it is not empty and holds no blank and no quote. -/
def standsBare (w : List Char) : Bool := !w.isEmpty && w.all Tokenize.isWordChar

theorem escapesNothing_cons_of_ne {c : Char} (hc : c ≠ '\\') (r : List Char) :
    escapesNothing (c :: r) = escapesNothing r := by
  simp [escapesNothing, hc]

theorem escapesNothing_backslash_cons (d : Char) (r : List Char) :
    escapesNothing ('\\' :: d :: r) = (!Tokenize.isBareEscape d && escapesNothing (d :: r)) :=
  rfl

@[simp]
theorem escapesNothing_singleton (c : Char) : escapesNothing [c] = true := by
  by_cases hc : c = '\\' <;> simp [escapesNothing, hc]

/-- Whether a text escapes nothing is settled on each side of any of its characters, that
character being seen from both sides. -/
theorem escapesNothing_append_cons (x : List Char) (c : Char) (s : List Char) :
    escapesNothing (x ++ c :: s) = (escapesNothing (x ++ [c]) && escapesNothing (c :: s)) := by
  induction x with
  | nil => simp
  | cons a x ih =>
    by_cases ha : a = '\\'
    · subst ha
      rcases x with _ | ⟨b, x⟩
      · simp [escapesNothing_backslash_cons]
      · simp only [List.cons_append, escapesNothing_backslash_cons] at ih ⊢
        rw [ih, Bool.and_assoc]
    · simp only [List.cons_append, escapesNothing_cons_of_ne ha, ih]

/-- A backslash before a text that starts with `d`, read up to one character past a split of
it, escapes nothing there exactly when it does not escape `d` and the text escapes nothing. -/
theorem escapesNothing_backslash_append {v rest r : List Char} {d : Char}
    (h : v ++ rest = d :: r) :
    escapesNothing ('\\' :: (v ++ rest.take 1)) =
      (!Tokenize.isBareEscape d && escapesNothing (v ++ rest.take 1)) := by
  obtain ⟨t, ht⟩ : ∃ t, v ++ rest.take 1 = d :: t := by
    rcases v with _ | ⟨x, v⟩
    · rw [List.nil_append] at h ⊢
      exact ⟨[], by rw [h]; rfl⟩
    · rw [List.cons_append] at h
      exact ⟨v ++ rest.take 1, by rw [(List.cons.inj h).1]; rfl⟩
  rw [ht, escapesNothing_backslash_cons]

theorem standsBare_iff {w : List Char} :
    standsBare w = true ↔ w ≠ [] ∧ ∀ c ∈ w, Tokenize.isWordChar c = true := by
  simp [standsBare]

theorem toList_intercalate_space (ss : List String) :
    (" ".intercalate ss).toList = Text.join [' '] (ss.map String.toList) := by
  induction ss with
  | nil => simp
  | cons s rest ih =>
    cases rest with
    | nil => simp
    | cons t rest =>
      rw [String.intercalate_cons_cons, String.toList_append, String.toList_append, ih]
      simp [Text.join_cons_cons]

namespace Tokenize

theorem isWordChar_backslash : isWordChar '\\' = true := rfl

theorem isWordChar_iff {c : Char} :
    isWordChar c = true ↔ ¬(c = ' ' ∨ c = '\t') ∧ isQuoteChar c = false := by
  simp [isWordChar, not_or]

@[simp]
theorem Scan.value_afterSection (v : List Char) (s : Scan) :
    (s.afterSection v).value = v ++ s.value := rfl

/-! ## What reading drops -/

/-- A quoted scan reads no more than it takes: its value and the text it leaves are together
no longer than its input. -/
theorem scanQuoted_length_le (q : Char) (cs : List Char) :
    (scanQuoted q cs).value.length + (scanQuoted q cs).rest.length ≤ cs.length := by
  fun_induction scanQuoted q cs <;> simp_all <;> omega

theorem scanBare_length_le (cs : List Char) :
    (scanBare cs).value.length + (scanBare cs).rest.length ≤ cs.length := by
  fun_induction scanBare cs with
  | case6 c r _ _ _ ih =>
    have := scanQuoted_length_le c r
    simp only [Scan.value_afterSection, Scan.rest_afterSection, List.length_append,
      List.length_cons]
    omega
  | _ => simp_all <;> omega

/-- The value of a section quoted by `q` starts with `q` only through an escape, which drops a
character more than the opening quote. -/
theorem scanQuoted_length_of_head {q : Char} (hq : q ≠ '\\') (cs : List Char)
    (h : (scanQuoted q cs).value.head? = some q) :
    (scanQuoted q cs).value.length + (scanQuoted q cs).rest.length + 1 ≤ cs.length := by
  rcases cs with _ | ⟨c, r⟩
  · simp [scanQuoted] at h
  · by_cases hc : c = q
    · subst hc
      simp at h
    · by_cases hb : c = '\\'
      · subst hb
        rcases r with _ | ⟨d, r⟩
        · simp [scanQuoted, Ne.symm hq] at h
        · by_cases hd : d = q ∨ d = '\\'
          · have := scanQuoted_length_le q r
            rw [scanQuoted_escape (Ne.symm hq) hd]
            simp only [Scan.value_cons, Scan.rest_cons, List.length_cons]
            omega
          · rw [scanQuoted_lone (Ne.symm hq) hd] at h
            simp only [Scan.value_cons, List.head?_cons, Option.some.injEq] at h
            exact absurd h.symm hq
      · rw [scanQuoted_plain hc hb] at h
        simp only [Scan.value_cons, List.head?_cons, Option.some.injEq] at h
        exact absurd h hc

/-- A word's value and the text after it are together no longer than the text it was read
from, and shorter unless a blank or the end of the line follows the word. -/
theorem readToken_value_length (pos : Nat) (c : Char) (r : List Char) :
    (readToken pos c r).1.value.length + (readToken pos c r).2.length ≤ r.length + 1 ∧
      ((readToken pos c r).1.value.length + (readToken pos c r).2.length ≤ r.length ∨
        EndsWord (readToken pos c r).2) := by
  unfold readToken
  split
  · have := scanQuoted_length_le c r
    simp only [String.length_ofList]
    omega
  · have := scanBare_length_le (c :: r)
    simp only [String.length_ofList, List.length_cons] at this ⊢
    exact ⟨this, .inr (scanBare_word_or_end (c :: r)).1⟩

/-- The values of the words of a text, joined by single spaces, are no longer than the text,
and shorter when the text starts with a blank. -/
theorem join_values_length_le (pos : Nat) (cs : List Char) :
    (Text.join [' '] ((tokensFrom pos cs).map fun t ↦ t.value.toList)).length ≤ cs.length ∧
      ∀ b r, cs = b :: r → (b = ' ' ∨ b = '\t') →
        (Text.join [' '] ((tokensFrom pos cs).map fun t ↦ t.value.toList)).length <
          cs.length := by
  fun_induction tokensFrom pos cs with
  | case1 => simp
  | case2 pos c r _ ih =>
    simp only [List.length_cons]
    exact ⟨by omega, fun _ _ _ _ ↦ by omega⟩
  | case3 pos c r hc p ih =>
    refine ⟨?_, fun b r' hcs hb ↦ absurd (by simpa [(List.cons.inj hcs).1] using hb) hc⟩
    simp only [p] at ih ⊢
    obtain ⟨hlen, hnext⟩ := readToken_value_length pos c r
    rcases hts : tokensFrom (readToken pos c r).1.stop (readToken pos c r).2 with _ | ⟨u, us⟩
    · simp only [List.map_cons, List.map_nil, Text.join_singleton, String.length_toList,
        List.length_cons]
      omega
    · rw [hts] at ih
      simp only [List.map_cons, Text.join_cons_cons, List.length_append, List.length_cons,
        String.length_toList, List.length_nil] at ih ⊢
      rcases hnext with hshort | hend
      · omega
      · rcases hrest : (readToken pos c r).2 with _ | ⟨b, r'⟩
        · rw [hrest, tokensFrom_nil] at hts
          cases hts
        · have hb : b = ' ' ∨ b = '\t' := by rw [← endsWord_cons b r', ← hrest]; exact hend
          have := ih.2 b r' hrest hb
          simp only [hrest, List.length_cons] at hlen this
          omega

/-- Words read as given values are, joined by single spaces, no longer than the text read. -/
theorem join_length_le_of_values {pos : Nat} {cs : List Char} (ws : List (List Char))
    (h : (tokensFrom pos cs).map Token.value = ws.map String.ofList) :
    (Text.join [' '] ws).length ≤ cs.length := by
  have hws : (tokensFrom pos cs).map (fun t ↦ t.value.toList) = ws := by
    have := congrArg (List.map String.toList) h
    simpa [List.map_map, Function.comp_def] using this
  rw [← hws]
  exact (join_values_length_le pos cs).1

/-! ## Words read as they stand -/

/-- A bare scan that drops nothing has read, up to a blank or the end of the line, a run of
word characters whose backslashes escape nothing. -/
theorem scanBare_of_length_eq (cs : List Char)
    (h : (scanBare cs).value.length + (scanBare cs).rest.length = cs.length) :
    cs = (scanBare cs).value ++ (scanBare cs).rest ∧
      (∀ c ∈ (scanBare cs).value, isWordChar c = true) ∧
      escapesNothing ((scanBare cs).value ++ (scanBare cs).rest.take 1) = true := by
  fun_induction scanBare cs with
  | case1 => simp [escapesNothing]
  | case2 c r hc =>
    simp
  | case3 => simp [isWordChar_backslash]
  | case4 d r hd _ =>
    have := scanBare_length_le r
    simp only [Scan.value_cons, Scan.rest_cons, List.length_cons] at h
    omega
  | case5 d r hd _ ih =>
    simp only [Scan.value_cons, Scan.rest_cons, List.length_cons] at h ⊢
    obtain ⟨hcs, hchars, hesc⟩ := ih (by simp only [List.length_cons]; omega)
    refine ⟨by rw [List.cons_append, ← hcs], ?_, ?_⟩
    · exact List.forall_mem_cons.mpr ⟨isWordChar_backslash, hchars⟩
    · have hd' : isBareEscape d = false := by simpa using hd
      rw [List.cons_append, escapesNothing_backslash_append hcs.symm, hesc, hd']
      rfl
  | case6 c r _ _ hq _ =>
    have h1 := scanQuoted_length_le c r
    have h2 := scanBare_length_le (scanQuoted c r).rest
    simp only [Scan.value_afterSection, Scan.rest_afterSection, List.length_append,
      List.length_cons] at h
    omega
  | case7 c r hc hb hq ih =>
    simp only [Scan.value_cons, Scan.rest_cons, List.length_cons] at h ⊢
    obtain ⟨hcs, hchars, hesc⟩ := ih (by omega)
    refine ⟨by rw [List.cons_append, ← hcs], ?_, ?_⟩
    · exact List.forall_mem_cons.mpr ⟨isWordChar_iff.mpr ⟨hc, by simpa using hq⟩, hchars⟩
    · rw [List.cons_append, escapesNothing_cons_of_ne hb, hesc]

/-- A run of word characters whose backslashes escape nothing is read by the bare scanner as
it stands, up to the blank or the end of the line after it. -/
theorem scanBare_of_plain {w : List Char} (hw : ∀ c ∈ w, isWordChar c = true)
    {ctx : List Char} (hctx : EndsWord ctx) (hesc : escapesNothing (w ++ ctx.take 1) = true) :
    scanBare (w ++ ctx) = ⟨w, ctx, false⟩ := by
  induction w with
  | nil =>
    cases ctx with
    | nil => rw [scanBare.eq_def]; rfl
    | cons b r => exact scanBare_blank hctx
  | cons c w ih =>
    have hw' : ∀ e ∈ w, isWordChar e = true := fun e he ↦ hw e (List.mem_cons_of_mem _ he)
    by_cases hb : c = '\\'
    · subst hb
      rcases hrest : w ++ ctx with _ | ⟨d, r⟩
      · obtain ⟨rfl, rfl⟩ := List.append_eq_nil_iff.mp hrest
        simp
      · rw [List.cons_append, escapesNothing_backslash_append hrest, Bool.and_eq_true] at hesc
        have hd : isBareEscape d = false := by simpa using hesc.1
        rw [List.cons_append, hrest, scanBare_lone hd, ← hrest, ih hw' hesc.2]
        rfl
    · obtain ⟨hc, hq⟩ := isWordChar_iff.mp (hw c List.mem_cons_self)
      rw [List.cons_append, escapesNothing_cons_of_ne hb] at hesc
      rw [List.cons_append, scanBare_plain hc hb hq, ih hw' hesc]
      rfl

/-- The token read from a character that is no quote is what the bare scanner reads. -/
theorem readToken_of_scanBare (pos : Nat) {c : Char} {r : List Char} {s : Scan}
    (hq : isQuoteChar c = false) (hs : scanBare (c :: r) = s) :
    (readToken pos c r).1.value = String.ofList s.value ∧ (readToken pos c r).2 = s.rest := by
  simp [readToken, hq, hs]

/-- The first word of a line, when it is read as the text `c :: w` before `ctx` and the words
after it as words whose joined length leaves no room to spare, has been read as it stands:
what is left is `ctx`, and `c :: w` is a bare word whose backslashes escape nothing. -/
theorem readToken_eq_word {pos : Nat} {c : Char} {w ctx : List Char} {ws : List (List Char)}
    (hval : (readToken pos c (w ++ ctx)).1.value = String.ofList (c :: w))
    (hrest : (tokensFrom (readToken pos c (w ++ ctx)).1.stop
      (readToken pos c (w ++ ctx)).2).map Token.value = ws.map String.ofList)
    (hlen : ctx.length ≤ (Text.join [' '] ws).length + 1) (hnil : ws = [] → ctx = []) :
    (readToken pos c (w ++ ctx)).2 = ctx ∧ standsBare (c :: w) = true ∧
      escapesNothing (c :: w ++ ctx.take 1) = true := by
  have hbound := join_length_le_of_values _ hrest
  cases hq : isQuoteChar c
  · obtain ⟨hv, hr⟩ := readToken_of_scanBare pos hq (rfl : scanBare (c :: (w ++ ctx)) = _)
    rw [hv, String.ofList_inj] at hval
    have hend := (scanBare_word_or_end (c :: (w ++ ctx))).1
    have hge : ctx.length ≤ (scanBare (c :: (w ++ ctx))).rest.length := by
      rcases ws with _ | ⟨v, vs⟩
      · simp [hnil rfl]
      · rcases hs : (scanBare (c :: (w ++ ctx))).rest with _ | ⟨b, r'⟩
        · rw [hr, hs, tokensFrom_nil] at hrest
          cases hrest
        · rw [hs, endsWord_cons] at hend
          rw [hr, hs, tokensFrom_blank hend] at hrest
          have := join_length_le_of_values _ hrest
          simp only [List.length_cons]
          omega
    have hle := scanBare_length_le (c :: (w ++ ctx))
    obtain ⟨hcs, hchars, hesc⟩ := scanBare_of_length_eq (c :: (w ++ ctx)) (by
      rw [hval] at hle ⊢
      simp only [List.length_cons, List.length_append] at hle hge ⊢
      omega)
    rw [hval] at hcs hchars hesc
    have hctx : (scanBare (c :: (w ++ ctx))).rest = ctx :=
      List.append_cancel_left (hcs.symm.trans (List.cons_append ..).symm)
    rw [hctx] at hesc
    exact ⟨hr.trans hctx, standsBare_iff.mpr ⟨List.cons_ne_nil _ _, hchars⟩, hesc⟩
  · exfalso
    have hqb : c ≠ '\\' := by rintro rfl; simp at hq
    rw [readToken_value_quoted hq, String.ofList_inj] at hval
    have hshort := scanQuoted_length_of_head hqb (w ++ ctx) (by rw [hval]; rfl)
    have hr : (readToken pos c (w ++ ctx)).2 = (scanQuoted c (w ++ ctx)).rest := by
      simp [readToken, hq]
    rw [hval, hr.symm] at hshort
    simp only [List.length_cons, List.length_append] at hshort
    omega

/-! ## Joined words -/

/-- A line of joined words is its first word followed by the end of the line, or by a space
and the line of the other words: what follows the first word ends it, is at most one
character longer than the other words' line, and is read as that line; and the backslashes
of the line escape nothing exactly when those of the first word and the character after it,
and those of the other words' line, escape nothing. -/
theorem join_cons_tail (w : List Char) (ws : List (List Char)) : ∃ ctx,
    Text.join [' '] (w :: ws) = w ++ ctx ∧ EndsWord ctx ∧
      ctx.length ≤ (Text.join [' '] ws).length + 1 ∧ (ws = [] → ctx = []) ∧
      escapesNothing (Text.join [' '] (w :: ws)) =
        (escapesNothing (w ++ ctx.take 1) && escapesNothing (Text.join [' '] ws)) ∧
      ∀ pos', ∃ pos'', tokensFrom pos' ctx = tokensFrom pos'' (Text.join [' '] ws) := by
  cases ws with
  | nil =>
    exact ⟨[], by simp, trivial, by simp, fun _ ↦ rfl, by simp [escapesNothing],
      fun pos' ↦ ⟨pos', rfl⟩⟩
  | cons v vs =>
    refine ⟨' ' :: Text.join [' '] (v :: vs), by simp [Text.join_cons_cons], by simp,
      by simp, nofun, ?_, fun pos' ↦ ⟨pos' + 1, tokensFrom_blank (.inl rfl)⟩⟩
    rw [Text.join_cons_cons, List.append_assoc, List.singleton_append,
      escapesNothing_append_cons, escapesNothing_cons_of_ne (by decide)]
    rfl

/-- Words joined by single spaces are read back as themselves, in order, exactly when each is
a nonempty run of characters that are no blank and no quote, and no backslash of the line
escapes the character after it. -/
theorem tokensFrom_join_iff (ws : List (List Char)) (pos : Nat) :
    (tokensFrom pos (Text.join [' '] ws)).map Token.value = ws.map String.ofList ↔
      (∀ w ∈ ws, standsBare w = true) ∧ escapesNothing (Text.join [' '] ws) = true := by
  induction ws generalizing pos with
  | nil => simp [escapesNothing]
  | cons w ws ih =>
    obtain ⟨ctx, hjoin, hctx, hlen, hnil, hesc, htail⟩ := join_cons_tail w ws
    rw [hesc, hjoin, List.forall_mem_cons, Bool.and_eq_true]
    constructor
    · intro h
      rcases w with _ | ⟨c, w⟩
      · exfalso
        rcases ws with _ | ⟨v, vs⟩
        · simp [hnil rfl] at h
        · rcases ctx with _ | ⟨b, r⟩
          · simp [Text.join_cons_cons] at hjoin
          · rw [List.nil_append, tokensFrom_blank hctx] at h
            have := join_length_le_of_values ([] :: v :: vs) h
            simp only [Text.join_cons_cons, List.length_append, List.length_cons] at this hlen
            omega
      · by_cases hc : c = ' ' ∨ c = '\t'
        · exfalso
          rw [List.cons_append, tokensFrom_blank hc] at h
          have := join_length_le_of_values ((c :: w) :: ws) h
          rw [hjoin] at this
          simp only [List.cons_append, List.length_cons, List.length_append] at this
          omega
        · rw [List.cons_append, tokensFrom_word hc, List.map_cons, List.map_cons,
            List.cons.injEq] at h
          obtain ⟨hrest, hstands, hfirst⟩ := readToken_eq_word h.1 h.2 hlen hnil
          obtain ⟨pos'', htl⟩ := htail (readToken pos c (w ++ ctx)).1.stop
          have hws := h.2
          rw [hrest, htl] at hws
          obtain ⟨hall, hesc'⟩ := (ih pos'').mp hws
          exact ⟨⟨hstands, hall⟩, hfirst, hesc'⟩
    · rintro ⟨⟨hw, hall⟩, hfirst, hesc'⟩
      obtain ⟨hne, hchars⟩ := standsBare_iff.mp hw
      obtain ⟨c, w', rfl⟩ := List.exists_cons_of_ne_nil hne
      obtain ⟨hc, hq⟩ := isWordChar_iff.mp (hchars c List.mem_cons_self)
      have hscan := scanBare_of_plain hchars hctx hfirst
      rw [List.cons_append] at hscan
      obtain ⟨hv, hr⟩ := readToken_of_scanBare pos hq hscan
      obtain ⟨pos'', htl⟩ := htail (readToken pos c (w' ++ ctx)).1.stop
      rw [List.cons_append, tokensFrom_word hc, List.map_cons, List.map_cons, hv, hr, htl,
        (ih pos'').mpr ⟨hall, hesc'⟩]

end Tokenize

/-- Strings joined by single spaces are tokenized back into themselves exactly when each is a
nonempty run of characters that are no blank and no quote, and no backslash of the line
escapes the character after it. -/
theorem tokenize_intercalate_iff (ws : List String) :
    (tokenize (" ".intercalate ws)).map Token.value = ws ↔
      (∀ w ∈ ws, standsBare w.toList = true) ∧
        escapesNothing (" ".intercalate ws).toList = true := by
  have h := Tokenize.tokensFrom_join_iff (ws.map String.toList) 0
  simp only [List.map_map, Function.comp_def, String.ofList_toList, List.map_id',
    List.forall_mem_map] at h
  rw [tokenize, toList_intercalate_space, h]

example : (tokenize "cc -DX=a\\b main.c\\").map Token.value = ["cc", "-DX=a\\b", "main.c\\"] := by
  decide +kernel

end FlagLine
