import FlagLine.Match.Words
import FlagLine.Proofs.Editor.DuplicatesMode
/-!
# The order patterns are tried in

A matcher compiles the patterns of its flags, each anchored at both ends, and files them
under the lower-cased category of their flag: a category's patterns are tried together, the
categories in the order they first appear among the flags. The pattern set so built holds,
under each category, the patterns of that category's flags in flag order, whatever the
flags, and a word takes the first pattern in that order that matches it at its start, or
falls to the default category when none does. When the flags of each category stand
together, that order is the order of the flags; when a flag of another category comes
between two flags of one category, it is not. Main statement: `Matcher.matchWord_first_tried`.
-/

namespace FlagLine

/-- The key a flag's patterns are filed under: its category, lower-cased. -/
def Flag.categoryKey (f : Flag) : String := Text.lowerString f.category

namespace Table

variable {α : Type}

theorem find?_map_pair (ks : List String) (g : String → α) (k : String) :
    Table.find? (ks.map fun j ↦ (j, g j)) k = if k ∈ ks then some (g k) else none := by
  induction ks with
  | nil => simp
  | cons j rest ih =>
    simp only [List.map_cons, Table.find?, List.mem_cons, ih]
    by_cases hkj : k = j
    · simp [hkj]
    · simp [hkj]

theorem insert_map_pair_of_mem {ks : List String} (hks : ks.Nodup) {k : String} (hk : k ∈ ks)
    (g : String → α) (v : α) :
    Table.insert (ks.map fun j ↦ (j, g j)) k v = ks.map fun j ↦ (j, if j = k then v else g j) := by
  induction ks with
  | nil => simp at hk
  | cons j rest ih =>
    obtain ⟨hj, hrest⟩ := List.nodup_cons.1 hks
    simp only [List.map_cons, Table.insert]
    by_cases hkj : k = j
    · subst hkj
      simp only [if_true, List.cons.injEq, true_and]
      apply List.map_congr_left
      intro i hi
      have : i ≠ k := fun h ↦ hj (h ▸ hi)
      simp [this]
    · rw [if_neg hkj, ih hrest ((List.mem_cons.1 hk).resolve_left hkj), if_neg (Ne.symm hkj)]

theorem insert_map_pair_of_not_mem {ks : List String} {k : String} (hk : k ∉ ks)
    (g : String → α) (v : α) :
    Table.insert (ks.map fun j ↦ (j, g j)) k v = ks.map (fun j ↦ (j, g j)) ++ [(k, v)] := by
  induction ks with
  | nil => rfl
  | cons j rest ih =>
    have hkj : k ≠ j := fun h ↦ hk (h ▸ List.mem_cons_self)
    simp only [List.map_cons, Table.insert, if_neg hkj, List.cons_append]
    rw [ih (fun h ↦ hk (List.mem_cons_of_mem _ h))]

end Table

namespace PatternSet

/-- The patterns a flag contributes, in the order of its regexps: each anchored at both
ends, those that compile. -/
def anchoredPatterns (f : Flag) : List (Regex.Pattern × Flag) :=
  f.regexps.filterMap fun r ↦ (Regex.parse ("^" ++ r ++ "$")).toOption.map (·, f)

/-- Categories gathered so far, with the category of one flag more at the end when it is new. -/
def addCategory (ks : List String) (f : Flag) : List String :=
  if f.categoryKey ∈ ks then ks else ks ++ [f.categoryKey]

theorem addCategory_of_mem {ks : List String} {f : Flag} (h : f.categoryKey ∈ ks) :
    addCategory ks f = ks :=
  if_pos h

theorem addCategory_of_not_mem {ks : List String} {f : Flag} (h : f.categoryKey ∉ ks) :
    addCategory ks f = ks ++ [f.categoryKey] :=
  if_neg h

/-- The categories of flags, each once, in the order they first appear. -/
def categoryOrder (flags : List Flag) : List String :=
  flags.foldl addCategory []

/-- The flags in the order their patterns are tried: category by category in the order the
categories first appear, the flags of a category in their order. -/
def triedOrder (flags : List Flag) : List Flag :=
  (categoryOrder flags).flatMap fun k ↦ flags.filter (·.categoryKey == k)

/-- The patterns of flags filed by category: under each category, in the order the
categories first appear, the patterns of its flags. -/
def groupsOf (flags : List Flag) : Table (List (Regex.Pattern × Flag)) :=
  (categoryOrder flags).map fun k ↦ (k, (flags.filter (·.categoryKey == k)).flatMap anchoredPatterns)

/-! ## Compiling one flag -/

theorem compileFlag_foldlM {f : Flag} {rs : List String}
    {acc res : List (Regex.Pattern × Flag) × List String}
    (h : rs.foldlM (fun (acc : List (Regex.Pattern × Flag) × List String) r ↦
      (match Regex.parse ("^" ++ r ++ "$") with
      | .ok p => .ok (acc.1 ++ [(p, f)], acc.2)
      | .error .overflow => .error .overflow
      | .error _ => .ok (acc.1, acc.2 ++ [r]) : Except Regex.RegexError _)) acc = .ok res) :
    res.1 = acc.1 ++ rs.filterMap fun r ↦ (Regex.parse ("^" ++ r ++ "$")).toOption.map (·, f) := by
  induction rs generalizing acc with
  | nil =>
    cases h
    simp
  | cons r rest ih =>
    rw [List.foldlM_cons] at h
    obtain ⟨acc', hstep, h⟩ := Except.bind_eq_ok h
    rw [ih h, List.filterMap_cons]
    cases hparse : Regex.parse ("^" ++ r ++ "$") with
    | ok p =>
      rw [hparse] at hstep
      cases hstep
      simp [Except.toOption]
    | error err =>
      rw [hparse] at hstep
      cases err with
      | overflow => cases hstep
      | malformed reason =>
        cases hstep
        simp [Except.toOption]

theorem compileFlag_ok {f : Flag} {ps : List (Regex.Pattern × Flag)} {bad : List String}
    (h : compileFlag f = .ok (ps, bad)) : ps = anchoredPatterns f :=
  compileFlag_foldlM h

/-! ## The order of the categories -/

/-- One flag more adds its category at the end, unless it is there. -/
theorem categoryOrder_append_singleton (flags : List Flag) (f : Flag) :
    categoryOrder (flags ++ [f]) = addCategory (categoryOrder flags) f := by
  unfold categoryOrder
  rw [List.foldl_append]
  rfl

/-- The categories gathered from a list already gathered: its own and those of the flags. -/
theorem mem_foldl_categories {flags : List Flag} {ks : List String} {k : String} :
    k ∈ flags.foldl addCategory ks ↔
      k ∈ ks ∨ ∃ f ∈ flags, f.categoryKey = k := by
  induction flags generalizing ks with
  | nil => simp
  | cons f rest ih =>
    rw [List.foldl_cons, ih]
    by_cases hf : f.categoryKey ∈ ks
    · rw [addCategory_of_mem hf]
      constructor
      · rintro (hk | ⟨g, hg, rfl⟩)
        · exact .inl hk
        · exact .inr ⟨g, List.mem_cons_of_mem _ hg, rfl⟩
      · rintro (hk | ⟨g, hg, rfl⟩)
        · exact .inl hk
        · rcases List.mem_cons.1 hg with rfl | hg
          · exact .inl hf
          · exact .inr ⟨g, hg, rfl⟩
    · rw [addCategory_of_not_mem hf]
      simp only [List.mem_append, List.mem_cons, List.not_mem_nil, or_false]
      constructor
      · rintro ((hk | rfl) | ⟨g, hg, rfl⟩)
        · exact .inl hk
        · exact .inr ⟨f, .inl rfl, rfl⟩
        · exact .inr ⟨g, .inr hg, rfl⟩
      · rintro (hk | ⟨g, rfl | hg, rfl⟩)
        · exact .inl (.inl hk)
        · exact .inl (.inr rfl)
        · exact .inr ⟨g, hg, rfl⟩

theorem mem_categoryOrder {flags : List Flag} {k : String} :
    k ∈ categoryOrder flags ↔ ∃ f ∈ flags, f.categoryKey = k := by
  simp [categoryOrder, mem_foldl_categories]

theorem nodup_foldl_categories {flags : List Flag} {ks : List String} (hks : ks.Nodup) :
    (flags.foldl addCategory ks).Nodup := by
  induction flags generalizing ks with
  | nil => exact hks
  | cons f rest ih =>
    rw [List.foldl_cons]
    apply ih
    by_cases hf : f.categoryKey ∈ ks
    · rwa [addCategory_of_mem hf]
    · rw [addCategory_of_not_mem hf]
      refine List.nodup_append.2 ⟨hks, by simp, ?_⟩
      rintro k hk b hb rfl
      exact hf (List.mem_singleton.1 hb ▸ hk)

theorem nodup_categoryOrder (flags : List Flag) : (categoryOrder flags).Nodup :=
  nodup_foldl_categories List.nodup_nil

theorem mem_triedOrder {flags : List Flag} {f : Flag} : f ∈ triedOrder flags ↔ f ∈ flags := by
  simp only [triedOrder, List.mem_flatMap, List.mem_filter, beq_iff_eq, mem_categoryOrder]
  constructor
  · rintro ⟨k, -, hf, -⟩
    exact hf
  · intro hf
    exact ⟨f.categoryKey, ⟨f, hf, rfl⟩, hf, rfl⟩

/-! ## Filing patterns by category -/

theorem flatMap_filter_append_singleton (flags : List Flag) (f : Flag) (k : String) :
    ((flags ++ [f]).filter (·.categoryKey == k)).flatMap anchoredPatterns =
      (flags.filter (·.categoryKey == k)).flatMap anchoredPatterns ++
        if f.categoryKey = k then anchoredPatterns f else [] := by
  by_cases hk : f.categoryKey = k <;> simp [List.filter_append, List.flatMap_append, hk]

/-- No flag is filed under a category that none of the flags has. -/
theorem filter_eq_nil_of_not_mem {flags : List Flag} {k : String}
    (hk : k ∉ categoryOrder flags) : flags.filter (·.categoryKey == k) = [] := by
  rw [List.filter_eq_nil_iff]
  intro g hg hgk
  exact hk (mem_categoryOrder.2 ⟨g, hg, by simpa using hgk⟩)

/-- Adding a flag's patterns to those of the flags before it files them as those of all. -/
theorem groups_add {s s' : PatternSet} {flags : List Flag} {f : Flag}
    (hs : s.groups = groupsOf flags) (h : s.add f = .ok s') :
    s'.groups = groupsOf (flags ++ [f]) := by
  unfold add at h
  obtain ⟨⟨ps, bad⟩, hc, h⟩ := Except.bind_eq_ok h
  cases h
  simp only
  rw [show Text.lowerString f.category = f.categoryKey from rfl, hs, compileFlag_ok hc, groupsOf,
    groupsOf, categoryOrder_append_singleton]
  by_cases hmem : f.categoryKey ∈ categoryOrder flags
  · rw [addCategory_of_mem hmem, Table.find?_map_pair, if_pos hmem, Option.getD_some,
      Table.insert_map_pair_of_mem (nodup_categoryOrder flags) hmem]
    apply List.map_congr_left
    intro j _
    rw [flatMap_filter_append_singleton]
    by_cases hj : j = f.categoryKey
    · subst hj
      simp
    · simp [hj, Ne.symm hj]
  · rw [addCategory_of_not_mem hmem, Table.find?_map_pair, if_neg hmem, Option.getD_none, List.nil_append,
      Table.insert_map_pair_of_not_mem hmem, List.map_append, List.map_singleton,
      flatMap_filter_append_singleton, filter_eq_nil_of_not_mem hmem]
    congr 1
    · apply List.map_congr_left
      intro j hj
      have hne : f.categoryKey ≠ j := fun heq ↦ hmem (heq ▸ hj)
      rw [flatMap_filter_append_singleton, if_neg hne, List.append_nil]
    · simp

/-- The pattern set of flags, built one flag after another, files their patterns by
category. -/
theorem groups_foldlM {flags pre : List Flag} {s₀ s : PatternSet}
    (h₀ : s₀.groups = groupsOf pre) (h : flags.foldlM PatternSet.add s₀ = .ok s) :
    s.groups = groupsOf (pre ++ flags) := by
  induction flags generalizing pre s₀ with
  | nil =>
    cases h
    simpa using h₀
  | cons f rest ih =>
    rw [List.foldlM_cons] at h
    obtain ⟨s₁, h₁, h⟩ := Except.bind_eq_ok h
    have := ih (groups_add h₀ h₁) h
    rwa [List.append_assoc, List.singleton_append] at this

theorem groups_ofFlags {flags : List Flag} {s : PatternSet} (h : PatternSet.ofFlags flags = .ok s) :
    s.groups = groupsOf flags :=
  @groups_foldlM flags [] {} s rfl h

/-! ## When each category's flags stand together -/

/-- No category comes back once another has started: the flags of each category stand
together. -/
def CategoriesTogether (flags : List Flag) : Prop :=
  ∀ a b, a ≠ b → ¬[a, b, a].Sublist (flags.map Flag.categoryKey)

theorem CategoriesTogether.of_sublist {flags flags' : List Flag} (h : CategoriesTogether flags)
    (hsub : flags'.Sublist flags) : CategoriesTogether flags' :=
  fun a b hab hs ↦ h a b hab (hs.trans (hsub.map _))

/-- With the categories together, the flags after the first are some of its category, then
flags of other categories only. -/
theorem CategoriesTogether.split {f : Flag} {rest : List Flag}
    (h : CategoriesTogether (f :: rest)) :
    ∃ same other, rest = same ++ other ∧ (∀ g ∈ same, g.categoryKey = f.categoryKey) ∧
      ∀ g ∈ other, g.categoryKey ≠ f.categoryKey := by
  induction rest with
  | nil => exact ⟨[], [], rfl, by simp, by simp⟩
  | cons g rest ih =>
    by_cases hg : g.categoryKey = f.categoryKey
    · have hdrop : (f :: rest).Sublist (f :: g :: rest) := (List.sublist_cons_self g rest).cons_cons f
      obtain ⟨same, other, rfl, hsame, hother⟩ := ih (h.of_sublist hdrop)
      refine ⟨g :: same, other, rfl, ?_, hother⟩
      rintro x (_ | ⟨_, hx⟩)
      · exact hg
      · exact hsame x hx
    · refine ⟨[], g :: rest, rfl, by simp, ?_⟩
      rintro x (_ | ⟨_, hx⟩) hxk
      · exact hg hxk
      · apply h f.categoryKey g.categoryKey (Ne.symm hg)
        have hx' : [x.categoryKey].Sublist (rest.map Flag.categoryKey) :=
          List.singleton_sublist.2 (List.mem_map_of_mem hx)
        rw [hxk] at hx'
        exact (hx'.cons_cons _).cons_cons _

theorem foldl_categories_of_mem {l : List Flag} {ks : List String}
    (h : ∀ g ∈ l, g.categoryKey ∈ ks) :
    l.foldl addCategory ks = ks := by
  induction l with
  | nil => rfl
  | cons g rest ih =>
    rw [List.foldl_cons, addCategory_of_mem (h g List.mem_cons_self)]
    exact ih fun g' hg' ↦ h g' (List.mem_cons_of_mem _ hg')

theorem foldl_categories_cons {l : List Flag} {k : String} (hk : ∀ g ∈ l, g.categoryKey ≠ k)
    (ks : List String) :
    l.foldl addCategory (k :: ks) =
      k :: l.foldl addCategory ks := by
  induction l generalizing ks with
  | nil => rfl
  | cons g rest ih =>
    have hg : g.categoryKey ≠ k := hk g List.mem_cons_self
    have hrest : ∀ g' ∈ rest, g'.categoryKey ≠ k := fun g' hg' ↦ hk g' (List.mem_cons_of_mem _ hg')
    rw [List.foldl_cons, List.foldl_cons]
    by_cases hmem : g.categoryKey ∈ ks
    · rw [addCategory_of_mem (List.mem_cons_of_mem _ hmem), addCategory_of_mem hmem]
      exact ih hrest ks
    · have hnew : g.categoryKey ∉ k :: ks := by simp [hg, hmem]
      rw [addCategory_of_not_mem hnew, addCategory_of_not_mem hmem, List.cons_append]
      exact ih hrest _

theorem categoryOrder_cons_append {f : Flag} {same other : List Flag}
    (hsame : ∀ g ∈ same, g.categoryKey = f.categoryKey)
    (hother : ∀ g ∈ other, g.categoryKey ≠ f.categoryKey) :
    categoryOrder (f :: (same ++ other)) = f.categoryKey :: categoryOrder other := by
  unfold categoryOrder
  rw [List.foldl_cons, addCategory_of_not_mem List.not_mem_nil, List.nil_append, List.foldl_append,
    @foldl_categories_of_mem same [f.categoryKey] (fun g hg ↦ by simp [hsame g hg]),
    foldl_categories_cons hother]

theorem triedOrder_cons_append {f : Flag} {same other : List Flag}
    (hsame : ∀ g ∈ same, g.categoryKey = f.categoryKey)
    (hother : ∀ g ∈ other, g.categoryKey ≠ f.categoryKey) :
    triedOrder (f :: (same ++ other)) = (f :: same) ++ triedOrder other := by
  rw [triedOrder, categoryOrder_cons_append hsame hother, List.flatMap_cons, triedOrder]
  congr 1
  · rw [List.filter_cons_of_pos (by simp), List.filter_append,
      List.filter_eq_self.2 (by simpa using hsame), List.filter_eq_nil_iff.2 (by simpa using hother),
      List.append_nil]
  · have hcat : ∀ k ∈ categoryOrder other,
        (f :: (same ++ other)).filter (·.categoryKey == k) = other.filter (·.categoryKey == k) := by
      intro k hk
      obtain ⟨g, hg, rfl⟩ := mem_categoryOrder.1 hk
      have hne : f.categoryKey ≠ g.categoryKey := Ne.symm (hother g hg)
      rw [List.filter_cons_of_neg (by simpa using hne), List.filter_append,
        List.filter_eq_nil_iff.2 (fun x hx ↦ by simpa [hsame x hx] using hne), List.nil_append]
    show (List.map _ _).flatten = (List.map _ _).flatten
    rw [List.map_congr_left hcat]

/-- When the flags of each category stand together, they are tried in their order. -/
theorem triedOrder_eq_self : ∀ {flags : List Flag}, CategoriesTogether flags → triedOrder flags = flags
  | [], _ => rfl
  | f :: rest, h => by
    obtain ⟨same, other, hrest, hsame, hother⟩ := h.split
    have hsub : other.Sublist (f :: rest) := by
      rw [hrest]
      exact ((List.sublist_append_right same other).cons f)
    have ih := triedOrder_eq_self (h.of_sublist hsub)
    rw [hrest, triedOrder_cons_append hsame hother, ih]
    rfl
termination_by flags => flags.length
decreasing_by
  rw [hrest]
  simp only [List.length_cons, List.length_append]
  omega

/-! ## The first pattern that matches -/

/-- The match of a word by one pattern of a flag, when the pattern matches it at its start. -/
def matchPair (t : Token) (pf : Regex.Pattern × Flag) : Option WordMatch :=
  (pf.1.matchStart t.value).map fun found ↦
    { token := t, category := pf.2.category, flag := some pf.2,
      groups := captures pf.1 pf.2 found t, matched := true }

theorem matched_of_findSome? {l : List (Regex.Pattern × Flag)} {t : Token} {w : WordMatch}
    (h : l.findSome? (matchPair t) = some w) : w.matched = true := by
  obtain ⟨pf, -, hpf⟩ := List.exists_of_findSome?_eq_some h
  simp only [matchPair, Option.map_eq_some_iff] at hpf
  obtain ⟨_, -, rfl⟩ := hpf
  rfl

theorem matchWord_eq_findSome (s : PatternSet) (t : Token) :
    s.matchWord t = (s.groups.findSome? fun g ↦ g.2.findSome? (matchPair t)).getD (.unmatched t) :=
  rfl

theorem findSome?_flatMap {α β γ : Type} (l : List α) (g : α → List β) (p : β → Option γ) :
    (l.flatMap g).findSome? p = l.findSome? fun a ↦ (g a).findSome? p := by
  induction l with
  | nil => rfl
  | cons a rest ih =>
    rw [List.flatMap_cons, List.findSome?_append, ih, List.findSome?_cons]
    cases (g a).findSome? p <;> rfl

/-- Taking the first value a search gives is applying it to the first element it gives one for. -/
theorem findSome?_eq_bind_find? {α β : Type} (l : List α) (p : α → Option β) :
    l.findSome? p = (l.find? fun a ↦ (p a).isSome).bind p := by
  induction l with
  | nil => rfl
  | cons a rest ih =>
    rw [List.findSome?_cons, List.find?_cons]
    cases hp : p a with
    | none => simpa using ih
    | some b => simp [hp]

/-- Patterns filed by category are tried as the patterns of the flags in tried order. -/
theorem findSome?_groupsOf (flags : List Flag) (t : Token) :
    ((groupsOf flags).findSome? fun g ↦ g.2.findSome? (matchPair t)) =
      ((triedOrder flags).flatMap anchoredPatterns).findSome? (matchPair t) := by
  rw [groupsOf, List.findSome?_map, triedOrder, List.flatMap_assoc, findSome?_flatMap]
  rfl

/-- A word takes the first pattern in tried order that matches it at its start, and falls to
the default category when none of the patterns of the flags does. -/
theorem matchWord_ofFlags {flags : List Flag} {s : PatternSet}
    (hs : PatternSet.ofFlags flags = .ok s) (t : Token) :
    (∀ p f, ((triedOrder flags).flatMap anchoredPatterns).find?
        (fun pf ↦ (pf.1.matchStart t.value).isSome) = some (p, f) →
      ∃ found, p.matchStart t.value = some found ∧
        s.matchWord t =
          { token := t, category := f.category, flag := some f,
            groups := captures p f found t, matched := true }) ∧
    ((∀ f ∈ flags, ∀ pf ∈ anchoredPatterns f, pf.1.matchStart t.value = none) ↔
      s.matchWord t = .unmatched t) := by
  have hmatch : s.matchWord t =
      (((triedOrder flags).flatMap anchoredPatterns).findSome? (matchPair t)).getD (.unmatched t) := by
    rw [matchWord_eq_findSome, groups_ofFlags hs, findSome?_groupsOf]
  refine ⟨fun p f hfind ↦ ?_, ⟨fun hnone ↦ ?_, fun hdefault ↦ ?_⟩⟩
  · have hp := List.find?_some hfind
    obtain ⟨found, hfound⟩ := Option.isSome_iff_exists.1 hp
    refine ⟨found, hfound, ?_⟩
    rw [hmatch, findSome?_eq_bind_find?]
    simp [hfind, matchPair, hfound]
  · rw [hmatch, List.findSome?_eq_none_iff.2, Option.getD_none]
    intro pf hpf
    obtain ⟨f, hf, hpf⟩ := List.mem_flatMap.1 hpf
    simp [matchPair, hnone f (mem_triedOrder.1 hf) pf hpf]
  · intro f hf pf hpf
    cases hm : pf.1.matchStart t.value with
    | none => rfl
    | some found =>
      exfalso
      have hsome : (((triedOrder flags).flatMap anchoredPatterns).findSome? (matchPair t)).isSome :=
        List.findSome?_isSome_iff.2
          ⟨pf, List.mem_flatMap.2 ⟨f, mem_triedOrder.2 hf, hpf⟩, by simp [matchPair, hm]⟩
      obtain ⟨w, hw⟩ := Option.isSome_iff_exists.1 hsome
      have hmatched := matched_of_findSome? hw
      rw [hmatch, hw, Option.getD_some] at hdefault
      rw [hdefault] at hmatched
      cases hmatched

/-- When the flags of each category stand together, a word takes the first pattern in the
order of the flags that matches it at its start. -/
theorem matchWord_ofFlags_of_together {flags : List Flag} {s : PatternSet}
    (hs : PatternSet.ofFlags flags = .ok s) (h : CategoriesTogether flags) (t : Token)
    {p : Regex.Pattern} {f : Flag}
    (hfind : (flags.flatMap anchoredPatterns).find?
      (fun pf ↦ (pf.1.matchStart t.value).isSome) = some (p, f)) :
    ∃ found, p.matchStart t.value = some found ∧
      s.matchWord t =
        { token := t, category := f.category, flag := some f,
          groups := captures p f found t, matched := true } := by
  rw [← triedOrder_eq_self h] at hfind
  exact (matchWord_ofFlags hs t).1 p f hfind

end PatternSet

namespace Matcher

/-- The patterns for a program are those of the global flags and the program's flags. -/
theorem patternsFor_ok {c : Config} {program : Option ProgramMatch} {ps : PatternSet}
    (h : patternsFor c program = .ok ps) :
    ∃ flags, c.flagsFor ((program.map ProgramMatch.canonical).getD "") = .ok flags ∧
      PatternSet.ofFlags flags = .ok ps :=
  Except.bind_eq_ok h

/-- A matcher gives a word the flag of the first pattern, in the order the flags of its
program are tried, that matches the word at its start, with that flag's category and the
pattern's captures; it gives the default result exactly when no pattern of the flags matches. -/
theorem matchWord_first_tried {c : Config} {e : Option String} {m : Matcher}
    (hm : make c e = .ok m) (t : Token) :
    ∃ flags, c.flagsFor ((m.program.map ProgramMatch.canonical).getD "") = .ok flags ∧
      (∀ p f, ((PatternSet.triedOrder flags).flatMap PatternSet.anchoredPatterns).find?
          (fun pf ↦ (pf.1.matchStart t.value).isSome) = some (p, f) →
        ∃ found, p.matchStart t.value = some found ∧
          m.matchWord t =
            { token := t, category := f.category, flag := some f,
              groups := captures p f found t, matched := true }) ∧
      ((∀ f ∈ flags, ∀ pf ∈ PatternSet.anchoredPatterns f, pf.1.matchStart t.value = none) ↔
        m.matchWord t = .unmatched t) := by
  obtain ⟨-, hps⟩ := make_patterns hm
  obtain ⟨flags, hflags, hs⟩ := patternsFor_ok hps
  exact ⟨flags, hflags, PatternSet.matchWord_ofFlags hs t⟩

/-- Global flags of the categories `X`, `Y`, `X`, where `ab` is a pattern of the second and
the third. -/
def interleavedConfig : Config :=
  { flags := [{ category := "X", regexps := ["z"] }, { category := "Y", regexps := ["ab"] },
      { category := "X", regexps := ["ab"] }] }

def abWord : Token := ⟨"ab", 0, 2, .none, "ab"⟩

/-- The matcher of `interleavedConfig` gives `ab` the first pattern in tried order. -/
theorem matchWord_first_tried_interleaved :
    ∃ m, make interleavedConfig none = .ok m ∧
      ∃ flags, interleavedConfig.flagsFor ((m.program.map ProgramMatch.canonical).getD "") =
          .ok flags ∧
        (∀ p f, ((PatternSet.triedOrder flags).flatMap PatternSet.anchoredPatterns).find?
            (fun pf ↦ (pf.1.matchStart abWord.value).isSome) = some (p, f) →
          ∃ found, p.matchStart abWord.value = some found ∧
            m.matchWord abWord =
              { token := abWord, category := f.category, flag := some f,
                groups := captures p f found abWord, matched := true }) ∧
        ((∀ f ∈ flags, ∀ pf ∈ PatternSet.anchoredPatterns f, pf.1.matchStart abWord.value = none) ↔
          m.matchWord abWord = .unmatched abWord) := by
  have hcomp : (make interleavedConfig none).toOption.isSome = true := by decide +kernel
  cases hm : make interleavedConfig none with
  | error err => simp [hm, Except.toOption] at hcomp
  | ok m => exact ⟨m, rfl, matchWord_first_tried hm abWord⟩

example : (PatternSet.triedOrder interleavedConfig.flags).map Flag.category = ["X", "X", "Y"] := by
  decide

example : ((make interleavedConfig none).toOption.map fun m ↦ (m.matchWord abWord).category) =
    some "X" := by
  decide +kernel

end Matcher

end FlagLine
