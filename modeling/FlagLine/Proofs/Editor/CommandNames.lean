import FlagLine.Editor.Session
/-!
# Running a command by name

A command is run by its full name or by an abbreviation. The name is looked up before the
command runs: a full name wins, then the names it abbreviates decide, one being the command,
none an unknown command and several an ambiguity. An unknown name comes back as a failed
outcome, but an ambiguity is not caught: running the command fails before the command starts.
Main statement: `executeAmong_fails_iff_ambiguous`, which says that this happens exactly when
the name is no command's name and abbreviates two or more of them, the failure naming those
commands in the order they are registered. No command, once started, fails that way.
-/

namespace FlagLine

namespace Commands

section Lookup

variable {registered : List String} {name : String}

theorem lookupIn_ambiguous (hname : registered.contains name = false)
    (htwo : 2 ≤ (registered.filter (abbreviates name)).length) :
    lookupIn registered name =
      .error s!"Ambiguous command '{name}': matches {quotedList (registered.filter (abbreviates name))}" := by
  unfold lookupIn
  rw [if_neg (by simpa using hname)]
  rcases hf : registered.filter (abbreviates name) with _ | ⟨a, _ | ⟨b, rest⟩⟩
  · simp [hf] at htwo
  · simp [hf] at htwo
  · rfl

/-- Looking a name up fails exactly when it is no name and abbreviates two names or more. -/
theorem lookupIn_eq_error_iff {m : String} :
    lookupIn registered name = .error m ↔
      registered.contains name = false ∧ 2 ≤ (registered.filter (abbreviates name)).length ∧
        m = s!"Ambiguous command '{name}': matches {quotedList (registered.filter (abbreviates name))}" := by
  constructor
  · intro h
    unfold lookupIn at h
    split at h
    · cases h
    · next hname =>
      revert h
      rcases hf : registered.filter (abbreviates name) with _ | ⟨a, _ | ⟨b, rest⟩⟩
      · intro h; cases h
      · intro h; cases h
      · intro h
        cases h
        exact ⟨by simpa using hname, by simp, rfl⟩
  · rintro ⟨hname, htwo, rfl⟩
    exact lookupIn_ambiguous hname htwo

/-- A name that is no name and abbreviates none stands for no command. -/
theorem lookupIn_unknown (hname : registered.contains name = false)
    (hnone : registered.filter (abbreviates name) = []) : lookupIn registered name = .ok none := by
  unfold lookupIn
  rw [if_neg (by simpa using hname), hnone]

end Lookup

end Commands

namespace Editor

theorem done_ne_error (e : Editor) (err : StepError) : done e ≠ .error err := nofun

/-- A started command fails only when matching the line fails. -/
theorem perform_error (e : Editor) (c : String) (args : List String) {err : StepError}
    (h : e.perform c args = .error err) : ∃ r, err = .regex r := by
  unfold perform at h
  simp only at h
  split at h
  -- every command ends in `done`, in an outcome of its own, or in a choice whose arms are
  -- `done`, an outcome, or the failure of matching the line
  all_goals first
    | exact absurd h (done_ne_error _ err)
    | (cases h; done)
    | (split at h <;> first
        | exact absurd h (done_ne_error _ err)
        | (cases h; done)
        | (cases h; exact ⟨_, rfl⟩))

/-- No command, once started, fails as an ambiguous name does. -/
theorem perform_ne_ambiguous (e : Editor) (c : String) (args : List String) (m : String) :
    e.perform c args ≠ .error (.ambiguous m) := by
  intro h
  obtain ⟨r, hr⟩ := perform_error e c args h
  cases hr

section Execute

variable (registered : Table String) (e : Editor) (name : String) (args : List String)

/-- A name that is no command's name and abbreviates none fails as an unknown command, and
the editor is left as it was. -/
theorem executeAmong_unknown
    (hname : (Commands.names ++ registered.keys).contains name = false)
    (hnone : (Commands.names ++ registered.keys).filter (Commands.abbreviates name) = []) :
    e.executeAmong registered name args =
      .ok ({ success := false, message := s!"Unknown command: {name}" }, e) := by
  rw [executeAmong, Commands.lookupIn_unknown hname hnone]

/-- Running a command by name fails before the command runs exactly when the name is no
command's name and abbreviates two commands or more, and the failure lists them in the order
they are registered. Every other name gives an outcome or the command's own failure. -/
theorem executeAmong_fails_iff_ambiguous (m : String) :
    let names := Commands.names ++ registered.keys
    let found := names.filter (Commands.abbreviates name)
    e.executeAmong registered name args = .error (.ambiguous m) ↔
      names.contains name = false ∧ 2 ≤ found.length ∧
        m = s!"Ambiguous command '{name}': matches {Commands.quotedList found}" := by
  intro names found
  constructor
  · intro h
    unfold executeAmong at h
    split at h
    · next m' hlook =>
      cases h
      exact Commands.lookupIn_eq_error_iff.1 hlook
    · cases h
    · split at h
      · cases h
      · exact absurd h (perform_ne_ambiguous _ _ _ _)
  · rintro ⟨hname, htwo, rfl⟩
    rw [executeAmong, Commands.lookupIn_ambiguous hname htwo]

end Execute

end Editor

end FlagLine
