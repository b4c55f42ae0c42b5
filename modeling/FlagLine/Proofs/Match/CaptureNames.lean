import FlagLine.Proofs.Regex.GroupNames
import FlagLine.Proofs.Match.PatternOrder
/-!
# A name, its captures and its value

A match names each capture group that took part in it: by the pattern's own name for the
group if it has one, else by the flag's capture name at the group's position. A word's match
answers a name in two ways. `WordMatch.groupValue` gives the value of the first capture of
the name, or a fallback. `WordMatch.namedGroups` files every named capture under its name, a
later capture of a name replacing an earlier one, and leaves out a capture named by the
empty text. The two answers agree on every name when no two captures share a name and none
is named by the empty text (`WordMatch.groupValue_eq_find?_namedGroups`).

A pattern gives its groups names that are apart (`Regex.parse_namesApart`), so the captures
of a match share no name when the flag's capture names are non-empty and distinct, and none
of them is a group name of one of its patterns (`Flag.NamesCapturesApart`). A flag that
repeats a name breaks the agreement: with the pattern `(?P<flag>-f)(x)` and the capture
names `ignored, flag`, the word `-fx` has `-f` under `flag` by the first lookup and `x` by
the table. Main statement: `Matcher.groupValue_eq_namedGroups`.
-/

namespace FlagLine

/-! ## The two lookups of a name -/

/-- Captures named apart: no two carry one name, and none is named by the empty text. -/
def Capture.NamedApart (gs : List Capture) : Prop :=
  (gs.filterMap Capture.name).Nodup ∧ ∀ g ∈ gs, g.name ≠ some ""

theorem Capture.namedApart_whole (t : Token) : Capture.NamedApart [Capture.whole t] :=
  ⟨by simp [Capture.whole], by simp [Capture.whole]⟩

/-- Filing captures one after another, each named one under its name, leaves under a name
the value of the first capture of that name, when the captures are named apart, and what
the table held before otherwise. -/
theorem Table.find?_foldl_filed {f : Table String → Capture → Table String}
    (hnone : ∀ t g, g.name = none → f t g = t)
    (hsome : ∀ t g k, g.name = some k → k ≠ "" → f t g = t.insert k g.value)
    {gs : List Capture} (h : Capture.NamedApart gs) (t : Table String) (n : String) :
    (gs.foldl f t).find? n = ((gs.find? (·.name == some n)).map Capture.value).or (t.find? n) := by
  induction gs generalizing t with
  | nil => simp
  | cons g gs ih =>
    obtain ⟨hnodup, hne⟩ := h
    have hrestNe : ∀ g' ∈ gs, g'.name ≠ some "" := fun g' hg' ↦ hne g' (List.mem_cons_of_mem _ hg')
    rw [List.foldl_cons, List.find?_cons]
    cases hg : g.name with
    | none =>
      rw [List.filterMap_cons, hg] at hnodup
      rw [hnone t g hg, ih ⟨hnodup, hrestNe⟩]
      simp
    | some k =>
      rw [List.filterMap_cons, hg] at hnodup
      obtain ⟨hfresh, hnodup⟩ := List.nodup_cons.1 hnodup
      have hk : k ≠ "" := fun hk ↦ hne g List.mem_cons_self (hk ▸ hg)
      rw [hsome t g k hg hk, ih ⟨hnodup, hrestNe⟩, Table.find?_insert]
      by_cases hkn : n = k
      · subst hkn
        have hlater : gs.find? (·.name == some n) = none := by
          refine List.find?_eq_none.2 fun g' hg' hname ↦ hfresh ?_
          exact List.mem_filterMap.2 ⟨g', hg', by simpa using hname⟩
        simp [hlater]
      · have hkn' : (k == n) = false := beq_false_of_ne (Ne.symm hkn)
        simp [hkn, hkn']

namespace WordMatch

/-- With its captures named apart, a match's table of named captures holds each name with
the value of the capture of that name. -/
theorem find?_namedGroups {m : WordMatch} (h : Capture.NamedApart m.groups) (n : String) :
    m.namedGroups.find? n = (m.group? n).map Capture.value := by
  unfold namedGroups
  rw [Table.find?_foldl_filed (fun t g hg ↦ by simp only [hg])
    (fun t g k hg hk ↦ by simp [hg, hk]) h]
  simp [group?]

/-- With its captures named apart, both lookups of a name agree: the first capture of the
name or the fallback, and the table of named captures or the fallback. -/
theorem groupValue_eq_find?_namedGroups {m : WordMatch} (h : Capture.NamedApart m.groups)
    (n d : String) : m.groupValue n d = (m.namedGroups.find? n).getD d := by
  rw [find?_namedGroups h]
  rfl

end WordMatch

/-! ## The names a match gives -/

/-- A flag names its captures apart: its capture names are non-empty and distinct, and none
of them is a name that one of its patterns gives a group. -/
def Flag.NamesCapturesApart (f : Flag) : Prop :=
  f.captureGroups.Nodup ∧ (∀ n ∈ f.captureGroups, n ≠ "") ∧
    ∀ r ∈ f.regexps, ∀ p, Regex.parse ("^" ++ r ++ "$") = .ok p →
      ∀ e ∈ p.names, e.1 ∉ f.captureGroups

section CaptureName

variable {p : Regex.Pattern} {f : Flag}

/-- A group is named by the pattern, or else by the flag's name at its position. -/
theorem captureName_eq_some {i : Nat} {n : String} (h : captureName p f i = some n) :
    (n, i) ∈ p.names ∨ f.captureGroups[i - 1]? = some n := by
  unfold captureName at h
  split at h
  · rename_i e j he
    cases h
    have hj := List.find?_some he
    simp only [beq_iff_eq] at hj
    subst hj
    exact .inl (List.mem_of_find?_eq_some he)
  · exact .inr h

/-- No group of a pattern is named by the empty text, when the flag's names are not empty. -/
theorem captureName_ne_empty (hp : Regex.Read.NamesApart p.names)
    (hne : ∀ n ∈ f.captureGroups, n ≠ "") (i : Nat) : captureName p f i ≠ some "" := by
  intro h
  rcases captureName_eq_some h with h | h
  · exact absurd (hp.2 _ h) (by decide : ¬Regex.Read.isIdentifier "" = true)
  · exact hne "" (List.mem_of_getElem? h) rfl

/-- Two groups of a pattern with one name are one group, when the flag names its captures
apart from each other and from the pattern's names. -/
theorem captureName_inj (hp : Regex.Read.NamesApart p.names) (hnodup : f.captureGroups.Nodup)
    (hdis : ∀ e ∈ p.names, e.1 ∉ f.captureGroups) {i j : Nat} (hi : 0 < i) (hj : 0 < j)
    {n : String} (hni : captureName p f i = some n) (hnj : captureName p f j = some n) :
    i = j := by
  rcases captureName_eq_some hni with hi' | hi' <;> rcases captureName_eq_some hnj with hj' | hj'
  · exact (Prod.mk.inj (List.inj_on_of_nodup_map hp.1 hi' hj' rfl)).2
  · exact absurd (List.mem_of_getElem? hj') (hdis _ hi')
  · exact absurd (List.mem_of_getElem? hi') (hdis _ hj')
  · obtain ⟨hilt, higet⟩ := List.getElem?_eq_some_iff.1 hi'
    obtain ⟨hjlt, hjget⟩ := List.getElem?_eq_some_iff.1 hj'
    have := (hnodup.getElem_inj_iff).1 (higet.trans hjget.symm)
    omega

/-- The captures of a match are named apart, when the flag names its captures apart from
each other and from the pattern's names. -/
theorem captures_namedApart (hp : Regex.Read.NamesApart p.names) (hnodup : f.captureGroups.Nodup)
    (hne : ∀ n ∈ f.captureGroups, n ≠ "") (hdis : ∀ e ∈ p.names, e.1 ∉ f.captureGroups)
    (found : Regex.Found) (t : Token) : Capture.NamedApart (captures p f found t) := by
  dsimp only [captures]
  split
  · exact Capture.namedApart_whole t
  · refine ⟨?_, fun g hg ↦ ?_⟩
    · -- a capture's name is its group's name, and groups of one name are one group
      rw [List.filterMap_filterMap]
      refine List.Nodup.filterMap (fun a b n ha hb ↦ ?_) List.nodup_range
      simp only [Option.mem_def, Option.bind_eq_some_iff, Option.map_eq_some_iff] at ha hb
      obtain ⟨_, ⟨_, -, rfl⟩, ha⟩ := ha
      obtain ⟨_, ⟨_, -, rfl⟩, hb⟩ := hb
      have := captureName_inj hp hnodup hdis (Nat.succ_pos a) (Nat.succ_pos b) ha hb
      omega
    · obtain ⟨j, -, hj⟩ := List.mem_filterMap.1 hg
      obtain ⟨_, -, rfl⟩ := Option.map_eq_some_iff.1 hj
      exact captureName_ne_empty hp hne (j + 1)

end CaptureName

/-! ## A matcher's answers -/

/-- A word matched by no pattern gets the default answer; a word matched gets the captures of
a pattern that one of the flag's regexps compiles to. -/
theorem Matcher.matchWord_cases {c : Config} {e : Option String} {m : Matcher}
    (hm : Matcher.make c e = .ok m) (t : Token) :
    m.matchWord t = .unmatched t ∨
      ∃ f r p found, r ∈ f.regexps ∧ Regex.parse ("^" ++ r ++ "$") = .ok p ∧
        m.matchWord t =
          { token := t, category := f.category, flag := some f,
            groups := captures p f found t, matched := true } := by
  obtain ⟨-, hps⟩ := make_patterns hm
  obtain ⟨flags, -, hs⟩ := patternsFor_ok hps
  have hmatch : m.matchWord t = (((PatternSet.triedOrder flags).flatMap
      PatternSet.anchoredPatterns).findSome? (PatternSet.matchPair t)).getD (.unmatched t) := by
    rw [Matcher.matchWord, PatternSet.matchWord_eq_findSome, PatternSet.groups_ofFlags hs,
      PatternSet.findSome?_groupsOf]
  cases hfind : ((PatternSet.triedOrder flags).flatMap
      PatternSet.anchoredPatterns).findSome? (PatternSet.matchPair t) with
  | none =>
    left
    rw [hmatch, hfind]
    rfl
  | some w =>
    right
    obtain ⟨⟨p, f⟩, hpf, hw⟩ := List.exists_of_findSome?_eq_some hfind
    obtain ⟨f', -, hpf⟩ := List.mem_flatMap.1 hpf
    obtain ⟨r, hr, hpf⟩ := List.mem_filterMap.1 hpf
    obtain ⟨p', hp', hpair⟩ := Option.map_eq_some_iff.1 hpf
    cases hpair
    obtain ⟨found, -, rfl⟩ := Option.map_eq_some_iff.1 hw
    refine ⟨f, r, p, found, hr, ?_, by rw [hmatch, hfind]; rfl⟩
    cases hparse : Regex.parse ("^" ++ r ++ "$") with
    | error err => simp [hparse, Except.toOption] at hp'
    | ok q => simpa [hparse, Except.toOption] using hp'

/-- Both lookups of a name in a matcher's answer for a word agree, the first capture of the
name or the fallback and the table of named captures or the fallback, whenever the flag that
matched the word names its captures apart. -/
theorem Matcher.groupValue_eq_namedGroups {c : Config} {e : Option String} {m : Matcher}
    (hm : Matcher.make c e = .ok m) (t : Token)
    (hflag : ∀ f, (m.matchWord t).flag = some f → f.NamesCapturesApart) (n d : String) :
    (m.matchWord t).groupValue n d = ((m.matchWord t).namedGroups.find? n).getD d := by
  apply WordMatch.groupValue_eq_find?_namedGroups
  rcases Matcher.matchWord_cases hm t with hw | ⟨f, r, p, found, hr, hp, hw⟩
  · rw [hw]
    exact Capture.namedApart_whole t
  · rw [hw] at hflag ⊢
    obtain ⟨hnodup, hne, hdis⟩ := hflag f rfl
    exact captures_namedApart (Regex.parse_namesApart hp) hnodup hne (hdis r hr p hp) found t

/-- A flag whose pattern names its first group `flag` and whose capture names name the other
two groups, as the matcher's tests configure it. -/
def mixedCapturesConfig : Config :=
  { flags := [{ category := "Test", regexps := ["(?P<flag>-f)(sanitize=)(.*)"],
                captureGroups := ["should_be_ignored", "name", "value"] }] }

def leakWord : Token := ⟨"-fsanitize=leak", 0, 15, .none, "-fsanitize=leak"⟩

/-- The flag of `mixedCapturesConfig` names its captures apart, and both lookups agree on
`leakWord`. -/
theorem groupValue_eq_namedGroups_mixed :
    ∃ m, Matcher.make mixedCapturesConfig none = .ok m ∧
      (∀ f, (m.matchWord leakWord).flag = some f → f.NamesCapturesApart) ∧
      ∀ n d, (m.matchWord leakWord).groupValue n d =
        ((m.matchWord leakWord).namedGroups.find? n).getD d := by
  have hrun : (Matcher.make mixedCapturesConfig none).toOption.map
      (fun m ↦ (m.matchWord leakWord).flag.map fun f ↦ (f.regexps, f.captureGroups)) =
        some (some (["(?P<flag>-f)(sanitize=)(.*)"], ["should_be_ignored", "name", "value"])) := by
    decide +kernel
  have hnames : (Regex.parse ("^" ++ "(?P<flag>-f)(sanitize=)(.*)" ++ "$")).toOption.map
      Regex.Pattern.names = some [("flag", 1)] := by
    decide +kernel
  cases hm : Matcher.make mixedCapturesConfig none with
  | error err => simp [hm, Except.toOption] at hrun
  | ok m =>
    have hflag : ∀ f, (m.matchWord leakWord).flag = some f → f.NamesCapturesApart := by
      intro f hf
      simp only [hm, Except.toOption, Option.map_some, hf, Option.some.injEq, Prod.mk.injEq] at hrun
      obtain ⟨hregexps, hcaptures⟩ := hrun
      refine ⟨by rw [hcaptures]; decide, by rw [hcaptures]; decide, ?_⟩
      intro r hr p hp e he
      rw [hregexps, List.mem_singleton] at hr
      subst hr
      rw [hp] at hnames
      simp only [Except.toOption, Option.map_some, Option.some.injEq] at hnames
      rw [hnames, List.mem_singleton] at he
      rw [he, hcaptures]
      decide
    exact ⟨m, rfl, hflag, Matcher.groupValue_eq_namedGroups hm leakWord hflag⟩

/-- A flag whose capture names give `flag` again to the group after the one its pattern
names `flag`. -/
def clashingCapturesConfig : Config :=
  { flags := [{ category := "T", regexps := ["(?P<flag>-f)(x)"],
                captureGroups := ["ignored", "flag"] }] }

def fxWord : Token := ⟨"-fx", 0, 3, .none, "-fx"⟩

/-- Both lookups of `flag` in the answer for `fxWord` disagree: the first capture of the
name holds `-f`, the table of named captures keeps the later `x`. -/
theorem groupValue_ne_namedGroups_clashing :
    ∃ m, Matcher.make clashingCapturesConfig none = .ok m ∧
      (m.matchWord fxWord).groupValue "flag" "<none>" = "-f" ∧
      ((m.matchWord fxWord).namedGroups.find? "flag").getD "<none>" = "x" := by
  have hrun : (Matcher.make clashingCapturesConfig none).toOption.map
      (fun m ↦ ((m.matchWord fxWord).groupValue "flag" "<none>",
        ((m.matchWord fxWord).namedGroups.find? "flag").getD "<none>")) = some ("-f", "x") := by
    decide +kernel
  cases hm : Matcher.make clashingCapturesConfig none with
  | error err => simp [hm, Except.toOption] at hrun
  | ok m =>
    simp only [hm, Except.toOption, Option.map_some, Option.some.injEq, Prod.mk.injEq] at hrun
    exact ⟨m, rfl, hrun⟩

end FlagLine
