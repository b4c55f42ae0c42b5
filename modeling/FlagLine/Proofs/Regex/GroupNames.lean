import Mathlib
import FlagLine.Regex.Parse
/-!
# The group names of a parsed pattern

A pattern names a group by `(?P<name>...)`. The reader refuses a name that is not an
identifier, and a name that an earlier group already has, so every name of a parsed pattern
is an identifier and names one group only.

The reader keeps the names in its state, and `openGroup` is the one step that adds to them:
every other step leaves them alone, or restores a state it saved. Each step is given a
Hoare triple — from a state whose names are apart, a step that ends well ends in a state
whose names are apart — proved with `mvcgen` one reader at a time, the helpers first, and
the two readers that call each other by induction on their fuel. Main statement:
`parse_namesApart`.
-/

open Std.Do

namespace FlagLine.Regex.Read

set_option mvcgen.warning false

/-- Group names told apart: no name is given twice, and each is an identifier. -/
def NamesApart (names : List (String × Nat)) : Prop :=
  (names.map Prod.fst).Nodup ∧ ∀ e ∈ names, isIdentifier e.1 = true

theorem namesApart_nil : NamesApart [] :=
  ⟨List.nodup_nil, fun _ he ↦ nomatch he⟩

theorem NamesApart.append_fresh {names : List (String × Nat)} {n : String} {g : Nat}
    (h : NamesApart names) (hfresh : ¬(names.lookup n).isSome = true)
    (hid : isIdentifier n = true) : NamesApart (names ++ [(n, g)]) := by
  obtain ⟨hnodup, hids⟩ := h
  have hnew : n ∉ names.map Prod.fst := by
    intro hn
    obtain ⟨e, he, rfl⟩ := List.mem_map.1 hn
    have hne := List.lookup_eq_none_iff.1 (Option.not_isSome_iff_eq_none.1 hfresh) e he
    simp at hne
  refine ⟨?_, fun e he ↦ ?_⟩
  · rw [List.map_append, List.map_singleton]
    refine List.nodup_append.2 ⟨hnodup, List.nodup_singleton n, ?_⟩
    rintro a ha b hb rfl
    rw [List.mem_singleton.1 hb] at ha
    exact hnew ha
  · rcases List.mem_append.1 he with he | he
    · exact hids e he
    · rw [List.mem_singleton.1 he]
      exact hid

/-- What every step of the reader keeps: when it ends well, the names are apart; when it
fails, nothing is asked. -/
abbrev apartAfter {α : Type} : PostCond α (.arg Reader (.except RegexError .pure)) :=
  post⟨fun _ s ↦ ⌜NamesApart s.names⌝, fun _ ↦ ⌜True⌝⟩

/-- A run of a step that keeps the names apart, from a state whose names are apart, ends
with the names apart. -/
theorem namesApart_of_run {α : Type} {x : ReadM α}
    (hx : ⦃fun s ↦ ⌜NamesApart s.names⌝⦄ x ⦃apartAfter⦄) {s s' : Reader} {a : α}
    (hs : NamesApart s.names) (hrun : x.run s = .ok (a, s')) : NamesApart s'.names := by
  have h := hx s hs
  simp only [wp, PredTrans.apply_pushArg] at h
  rw [hrun] at h
  exact h

/-! ## Steps that leave the names alone -/

-- ahead of the library's rule for `throw`, which leaves the inner monad undetermined here
@[spec high] theorem throw_spec {α : Type} (e : RegexError)
    (Q : PostCond α (.arg Reader (.except RegexError .pure))) :
    ⦃fun _ ↦ Q.2.1 e⦄ (throw e : ReadM α) ⦃Q⦄ :=
  fun _ h ↦ h

@[spec] theorem fail_spec {α : Type} (reason : String)
    (Q : PostCond α (.arg Reader (.except RegexError .pure))) :
    ⦃fun _ ↦ Q.2.1 (.malformed reason)⦄ (fail reason : ReadM α) ⦃Q⦄ :=
  fun _ h ↦ h

@[spec] theorem peek_spec : ⦃fun s ↦ ⌜NamesApart s.names⌝⦄ peek ⦃apartAfter⦄ := by
  mvcgen [peek]

@[spec] theorem peekSecond_spec : ⦃fun s ↦ ⌜NamesApart s.names⌝⦄ peekSecond ⦃apartAfter⦄ := by
  mvcgen [peekSecond]

@[spec] theorem next_spec : ⦃fun s ↦ ⌜NamesApart s.names⌝⦄ next ⦃apartAfter⦄ := by
  mvcgen [next]

@[spec] theorem accept_spec (c : Char) :
    ⦃fun s ↦ ⌜NamesApart s.names⌝⦄ accept c ⦃apartAfter⦄ := by
  mvcgen [accept]

@[spec] theorem takeUpTo_spec (n : Nat) (p : Char → Bool) :
    ⦃fun s ↦ ⌜NamesApart s.names⌝⦄ takeUpTo n p ⦃apartAfter⦄ := by
  mvcgen [takeUpTo]

@[spec] theorem upTo_spec (terminator : Char) (what : String) :
    ⦃fun s ↦ ⌜NamesApart s.names⌝⦄ upTo terminator what ⦃apartAfter⦄ := by
  mvcgen [upTo]

@[spec] theorem charOfCode_spec (n : Nat) :
    ⦃fun s ↦ ⌜NamesApart s.names⌝⦄ charOfCode n ⦃apartAfter⦄ := by
  mvcgen [charOfCode]

@[spec] theorem hexEscape_spec (digits : Nat) (letter : Char) :
    ⦃fun s ↦ ⌜NamesApart s.names⌝⦄ hexEscape digits letter ⦃apartAfter⦄ := by
  mvcgen [hexEscape]

@[spec] theorem setEscape_spec (c : Char) :
    ⦃fun s ↦ ⌜NamesApart s.names⌝⦄ setEscape c ⦃apartAfter⦄ := by
  mvcgen [setEscape]

@[spec] theorem setItems_spec (fuel : Nat) (acc : List SetItem) :
    ⦃fun s ↦ ⌜NamesApart s.names⌝⦄ setItems fuel acc ⦃apartAfter⦄ := by
  induction fuel generalizing acc with
  | zero => mvcgen [setItems]
  | succ fuel ih => mvcgen [setItems, ih]

@[spec] theorem braceCount_spec : ⦃fun s ↦ ⌜NamesApart s.names⌝⦄ braceCount ⦃apartAfter⦄ := by
  -- the count that is no count puts back the state it saved, whose names were apart
  mvcgen [braceCount]

@[spec] theorem isClosed_spec (g : Nat) :
    ⦃fun s ↦ ⌜NamesApart s.names⌝⦄ isClosed g ⦃apartAfter⦄ := by
  mvcgen [isClosed]

@[spec] theorem checkLookbehindRef_spec (g : Nat) :
    ⦃fun s ↦ ⌜NamesApart s.names⌝⦄ checkLookbehindRef g ⦃apartAfter⦄ := by
  mvcgen [checkLookbehindRef]

@[spec] theorem groupRef_spec (fold : Bool) (g : Nat) :
    ⦃fun s ↦ ⌜NamesApart s.names⌝⦄ groupRef fold g ⦃apartAfter⦄ := by
  mvcgen [groupRef]

@[spec] theorem digitEscape_spec (fold : Bool) (c : Char) :
    ⦃fun s ↦ ⌜NamesApart s.names⌝⦄ digitEscape fold c ⦃apartAfter⦄ := by
  mvcgen [digitEscape]

@[spec] theorem escape_spec (flags : Flags) (c : Char) :
    ⦃fun s ↦ ⌜NamesApart s.names⌝⦄ escape flags c ⦃apartAfter⦄ := by
  mvcgen [escape]

@[spec] theorem expectClose_spec : ⦃fun s ↦ ⌜NamesApart s.names⌝⦄ expectClose ⦃apartAfter⦄ := by
  mvcgen [expectClose]

@[spec] theorem closeGroup_spec (g : Nat) (body : Node) :
    ⦃fun s ↦ ⌜NamesApart s.names⌝⦄ closeGroup g body ⦃apartAfter⦄ := by
  mvcgen [closeGroup]

@[spec] theorem inlineFlags_spec (first : Char) :
    ⦃fun s ↦ ⌜NamesApart s.names⌝⦄ inlineFlags first ⦃apartAfter⦄ := by
  -- each of its loops reads characters only
  mvcgen [inlineFlags] invariants
  · apartAfter
  · apartAfter
  · apartAfter

/-! ## Opening a group, the one step that names -/

@[spec] theorem openGroup_none_spec :
    ⦃fun s ↦ ⌜NamesApart s.names⌝⦄ openGroup none ⦃apartAfter⦄ := by
  mvcgen [openGroup]

@[spec] theorem openGroup_some_spec {name : String} (hid : isIdentifier name = true) :
    ⦃fun s ↦ ⌜NamesApart s.names⌝⦄ openGroup (some name) ⦃apartAfter⦄ := by
  mvcgen [openGroup]
  -- the name is fresh, since it was looked up, and an identifier, as the caller checked
  exact ‹NamesApart _›.append_fresh ‹_› hid

/-! ## The two readers that call each other -/

/-- Both readers keep the names apart, whatever their fuel: by induction on the fuel, each
read once around the triples of the fuel below. -/
theorem readers_spec (fuel : Nat) :
    (∀ flags nested,
      ⦃fun s ↦ ⌜NamesApart s.names⌝⦄ alternatives fuel flags nested ⦃apartAfter⦄) ∧
    (∀ flags nested first items,
      ⦃fun s ↦ ⌜NamesApart s.names⌝⦄ sequence fuel flags nested first items ⦃apartAfter⦄) := by
  induction fuel with
  | zero => exact ⟨fun _ _ ↦ by mvcgen [alternatives], fun _ _ _ _ ↦ by mvcgen [sequence]⟩
  | succ fuel ih =>
    obtain ⟨halternatives, hsequence⟩ := ih
    refine ⟨fun flags nested ↦ ?_, fun flags nested first items ↦ ?_⟩
    · rw [alternatives.eq_2]
      mvcgen [hsequence] invariants
      · apartAfter
    · -- opened by its equation first: `mvcgen` left to unfold it stalls on the body
      rw [sequence.eq_2]
      -- its own closers cost three times the rest on these goals, so they are closed here:
      mvcgen -trivial -leave [halternatives, hsequence]
      all_goals try (intro _; assumption)
      simpa using ‹¬(!isIdentifier _) = true›

end FlagLine.Regex.Read

namespace FlagLine.Regex

/-- The names of a parsed pattern are identifiers, each naming one group only. -/
theorem parse_namesApart {pattern : String} {flags : Flags} {p : Pattern}
    (h : parse pattern flags = .ok p) : Read.NamesApart p.names := by
  dsimp only [parse] at h
  cases hrun : (Read.alternatives (4 * pattern.toList.length + 8) flags 0).run
      { rest := pattern.toList, flags := flags } with
  | error e =>
    rw [hrun] at h
    cases h
  | ok v =>
    obtain ⟨root, s⟩ := v
    have hs := Read.namesApart_of_run ((Read.readers_spec _).1 _ _) Read.namesApart_nil hrun
    rw [hrun] at h
    dsimp only [bind, Except.bind, throw, throwThe, MonadExceptOf.throw] at h
    split at h
    · cases h
    split at h
    · cases h
    split at h
    · cases h
    cases h
    exact hs

end FlagLine.Regex
