import FlagLine.Editor.Session
import FlagLine.Proofs.Editor.DuplicateGroups
import FlagLine.Proofs.Match.History
/-!
# The duplicates mode of the editor

While the editor shows groups of duplicates, they are those of its line: the editor is in
the duplicates mode, the groups are well formed, and their categories and positions are the
duplicates among what its matcher finds on its words (`Editor.ShowsDuplicates`). Each
command of the mode keeps this, whether it walks or selects the groups, deletes words and
finds the groups again, or enters and leaves the mode (`Editor.DuplicatesShown.apply`).
Main statement: `Editor.shows_duplicates_of_run`, which says that every run of these
commands from an editor showing nothing ends with groups that are those of the line, whose
current word is one of the words highlighted.
-/

namespace FlagLine

namespace Editor

/-- The commands of the duplicates mode: entering it, walking and selecting the groups,
keeping or deleting duplicate words, and leaving it. -/
inductive DuplicatesCommand where
  | enter
  | previousWord
  | nextWord
  | previousGroup
  | nextGroup
  | select
  | deselect
  | selectAll
  | selectNone
  | keepCurrent
  | deleteCurrent
  | keepFirst
  | leave
  deriving DecidableEq, Repr

namespace DuplicatesCommand

def name : DuplicatesCommand → String
  | enter => "show-duplicates"
  | previousWord => "duplicate-prev"
  | nextWord => "duplicate-next"
  | previousGroup => "duplicate-previous-group"
  | nextGroup => "duplicate-next-group"
  | select => "duplicate-select"
  | deselect => "duplicate-deselect"
  | selectAll => "duplicate-all"
  | selectNone => "duplicate-none"
  | keepCurrent => "duplicates-keep"
  | deleteCurrent => "duplicates-delete"
  | keepFirst => "duplicates-first"
  | leave => "duplicates-exit"

def apply (e : Editor) : DuplicatesCommand → Except Regex.RegexError Editor
  | enter => e.enterDuplicates
  | previousWord =>
    e.onDuplicates fun d ↦ pure { e with duplicates := some d.previousWord }.toCurrentDuplicate
  | nextWord => e.onDuplicates fun d ↦ pure { e with duplicates := some d.nextWord }.toCurrentDuplicate
  | previousGroup =>
    e.onDuplicates fun d ↦ pure { e with duplicates := some d.previousGroup }.toCurrentDuplicate
  | nextGroup => e.onDuplicates fun d ↦ pure { e with duplicates := some d.nextGroup }.toCurrentDuplicate
  | select => e.onDuplicates fun d ↦ pure { e with duplicates := some (d.selectCurrent true) }
  | deselect => e.onDuplicates fun d ↦ pure { e with duplicates := some (d.selectCurrent false) }
  | selectAll => e.onDuplicates fun d ↦ pure { e with duplicates := some (d.selectAll true) }
  | selectNone => e.onDuplicates fun d ↦ pure { e with duplicates := some (d.selectAll false) }
  | keepCurrent => e.onDuplicates fun d ↦ e.deleteWords d.keepCurrentDeletes
  | deleteCurrent =>
    e.onDuplicates fun d ↦
      match d.takeCurrent with
      | some (i, d') => { e with duplicates := some d' }.deleteWords [i]
      | none => pure e
  | keepFirst => e.onDuplicates fun d ↦ e.deleteWords d.keepFirstDeletes
  | leave => pure e.exitDuplicates

end DuplicatesCommand

/-- A change of the editor as a step reports it: success with the new editor, or the regular
expression that failed. -/
def reportStep : Except Regex.RegexError Editor → Except StepError (Commands.Outcome × Editor)
  | .ok e => done e
  | .error err => .error (.regex err)

theorem perform_duplicatesCommand (e : Editor) (c : DuplicatesCommand) (args : List String) :
    e.perform c.name args = reportStep (c.apply e) := by
  cases c <;> rfl

theorem reportStep_ok {r : Except Regex.RegexError Editor} {o : Commands.Outcome} {e' : Editor}
    (h : reportStep r = .ok (o, e')) : r = .ok e' := by
  cases r with
  | ok e =>
    simp only [reportStep, done, Except.ok.injEq, Prod.mk.injEq] at h
    rw [h.2]
  | error err => cases h

theorem make_duplicates {c : Config} {theme : Option String} {text : String} {host : Host}
    {e : Editor} (h : make c theme text host = .ok e) : e.duplicates = none := by
  unfold make at h
  dsimp only at h
  obtain ⟨lx, -, h⟩ := Except.bind_eq_ok h
  cases h
  rfl

/-! ## Groups that are those of the line -/

/-- Groups an editor can show: it is in the duplicates mode, the groups are well formed,
and their categories and positions are the duplicates among what its matcher finds on its
words. -/
structure ShowsDuplicates (e : Editor) (d : Duplicates) : Prop where
  mode : e.mode = .duplicates
  wellFormed : d.WellFormed
  found : ∃ rs, (e.lexer.matcher.matchLine e.tokens).map Prod.fst = .ok rs ∧
    d.table = duplicateFlags rs

/-- The groups an editor shows, if any, are those of its line. -/
def DuplicatesShown (e : Editor) : Prop := ∀ d, e.duplicates = some d → e.ShowsDuplicates d

variable {e e' : Editor}

theorem tokens_edit {f : Buffer → Buffer} (h : (f e.buffer).text = e.buffer.text) :
    (e.edit f).tokens = e.tokens := by
  show tokenize (f e.buffer).line = tokenize e.buffer.line
  rw [Buffer.line, Buffer.line, h]

/-- Matching the line changes only the lexer's matcher, and matching again with the matcher
it leaves finds the same words. -/
theorem matchResults_ok {rs : List WordMatch} (h : e.matchResults = .ok (rs, e')) :
    e'.duplicates = e.duplicates ∧ e'.mode = e.mode ∧
      (e.lexer.matcher.matchLine e.tokens).map Prod.fst = .ok rs ∧
      (e'.lexer.matcher.matchLine e'.tokens).map Prod.fst = .ok rs := by
  unfold matchResults at h
  obtain ⟨⟨rs₀, m⟩, hm, h⟩ := Except.bind_eq_ok h
  cases h
  exact ⟨rfl, rfl, by rw [hm]; rfl, Matcher.matchLine_again hm⟩

namespace DuplicatesShown

/-- Changing the buffer but not its text keeps the groups those of the line. -/
theorem edit (hshown : DuplicatesShown e) {f : Buffer → Buffer}
    (h : (f e.buffer).text = e.buffer.text) : DuplicatesShown (e.edit f) := by
  intro d hd
  obtain ⟨hmode, hwf, hfound⟩ := hshown d hd
  exact ⟨hmode, hwf, by rw [tokens_edit h]; exact hfound⟩

theorem toCurrentDuplicate (hshown : DuplicatesShown e) : DuplicatesShown e.toCurrentDuplicate := by
  unfold Editor.toCurrentDuplicate
  split
  · exact hshown.edit rfl
  · exact hshown

/-- A change of the groups that keeps their categories and positions keeps them those of the
line. -/
theorem change (hshown : DuplicatesShown e) {d : Duplicates} (hd : e.duplicates = some d)
    {f : Duplicates → Duplicates} (hf : Duplicates.KeepsGroups f) :
    DuplicatesShown { e with duplicates := some (f d) } := by
  intro d' hd'
  obtain rfl := Option.some.inj hd'
  obtain ⟨hmode, hwf, rs, hrs, htable⟩ := hshown d hd
  obtain ⟨hwf', htable'⟩ := hf d hwf
  exact ⟨hmode, hwf', rs, hrs, htable'.trans htable⟩

theorem onDuplicates (hshown : DuplicatesShown e) {g : Duplicates → Except Regex.RegexError Editor}
    (hg : ∀ d, e.duplicates = some d → g d = .ok e' → DuplicatesShown e')
    (h : e.onDuplicates g = .ok e') : DuplicatesShown e' := by
  unfold Editor.onDuplicates at h
  split at h
  · rename_i d hd
    exact hg d hd h
  · cases h
    exact hshown

/-- Walking or selecting the groups, and then perhaps moving the cursor, keeps them those
of the line. -/
theorem onDuplicates_change (hshown : DuplicatesShown e) {f : Duplicates → Duplicates}
    (hf : Duplicates.KeepsGroups f) (move : Editor → Editor)
    (hmove : ∀ e, DuplicatesShown e → DuplicatesShown (move e))
    (h : e.onDuplicates (fun d ↦ pure (move { e with duplicates := some (f d) })) = .ok e') :
    DuplicatesShown e' :=
  hshown.onDuplicates (fun _ hd hg ↦ by cases hg; exact hmove _ (hshown.change hd hf)) h

end DuplicatesShown

/-- Finding the groups again makes them those of the line, as long as groups are shown only
in the duplicates mode. -/
theorem refreshDuplicates_shown (h : e.refreshDuplicates = .ok e')
    (hmode : ∀ d, e.duplicates = some d → e.mode = .duplicates) : DuplicatesShown e' := by
  unfold refreshDuplicates at h
  obtain ⟨⟨rs, e₁⟩, hr, h⟩ := Except.bind_eq_ok h
  cases h
  obtain ⟨hdup, hmode₁, -, hagain⟩ := matchResults_ok hr
  intro d hd
  dsimp only at hd
  rw [hdup] at hd
  obtain ⟨d₀, hd₀, rfl⟩ := Option.map_eq_some_iff.mp hd
  obtain ⟨hwf, htable⟩ := d₀.refresh_wellFormed (duplicateFlags_table rs)
  exact ⟨hmode₁.trans (hmode d₀ hd₀), hwf, rs, hagain, htable⟩

theorem deleteWords_shown {ps : List Nat} (h : e.deleteWords ps = .ok e')
    (hmode : ∀ d, e.duplicates = some d → e.mode = .duplicates)
    (hnone : ps = [] → DuplicatesShown e) : DuplicatesShown e' := by
  unfold deleteWords at h
  split at h
  · rename_i hempty
    cases h
    exact hnone (List.isEmpty_iff.mp hempty)
  · exact refreshDuplicates_shown h hmode

namespace DuplicatesShown

theorem enterDuplicates (hshown : DuplicatesShown e) (h : e.enterDuplicates = .ok e') :
    DuplicatesShown e' := by
  unfold Editor.enterDuplicates at h
  obtain ⟨⟨rs, e₁⟩, hr, h⟩ := Except.bind_eq_ok h
  obtain ⟨hdup, hmode, hfirst, hagain⟩ := matchResults_ok hr
  dsimp only at h
  split at h
  · cases h
    intro d hd
    obtain ⟨hmode₀, hwf, rs₀, hrs₀, htable⟩ := hshown d (hdup ▸ hd)
    have hsame : rs₀ = rs := by
      rw [hfirst] at hrs₀
      exact (Except.ok.inj hrs₀).symm
    exact ⟨hmode.trans hmode₀, hwf, rs, hagain, hsame ▸ htable⟩
  · cases h
    intro d hd
    obtain rfl := Option.some.inj hd
    obtain ⟨hwf, htable⟩ := Duplicates.ofTable_wellFormed (duplicateFlags_table rs)
    exact ⟨rfl, hwf, rs, hagain, htable⟩

theorem exitDuplicates (e : Editor) : DuplicatesShown e.exitDuplicates := by
  intro d hd
  cases hd

/-- Every command of the duplicates mode keeps the groups shown those of the line. -/
theorem apply (hshown : DuplicatesShown e) (c : DuplicatesCommand) (h : c.apply e = .ok e') :
    DuplicatesShown e' := by
  have hmode : ∀ d, e.duplicates = some d → e.mode = .duplicates := fun d hd ↦ (hshown d hd).mode
  cases c with
  | enter => exact hshown.enterDuplicates h
  | previousWord =>
    exact hshown.onDuplicates_change Duplicates.keepsGroups_previousWord _
      (fun _ h ↦ h.toCurrentDuplicate) h
  | nextWord =>
    exact hshown.onDuplicates_change Duplicates.keepsGroups_nextWord _
      (fun _ h ↦ h.toCurrentDuplicate) h
  | previousGroup =>
    exact hshown.onDuplicates_change Duplicates.keepsGroups_previousGroup _
      (fun _ h ↦ h.toCurrentDuplicate) h
  | nextGroup =>
    exact hshown.onDuplicates_change Duplicates.keepsGroups_nextGroup _
      (fun _ h ↦ h.toCurrentDuplicate) h
  | select => exact hshown.onDuplicates_change (Duplicates.keepsGroups_selectCurrent true) id (fun _ h ↦ h) h
  | deselect =>
    exact hshown.onDuplicates_change (Duplicates.keepsGroups_selectCurrent false) id (fun _ h ↦ h) h
  | selectAll => exact hshown.onDuplicates_change (Duplicates.keepsGroups_selectAll true) id (fun _ h ↦ h) h
  | selectNone =>
    exact hshown.onDuplicates_change (Duplicates.keepsGroups_selectAll false) id (fun _ h ↦ h) h
  | keepCurrent => exact hshown.onDuplicates (fun _ _ hg ↦ deleteWords_shown hg hmode fun _ ↦ hshown) h
  | deleteCurrent =>
    refine hshown.onDuplicates (fun d hd hg ↦ ?_) h
    split at hg
    · exact deleteWords_shown hg (fun _ _ ↦ hmode d hd) (fun hnil ↦ nomatch hnil)
    · cases hg
      exact hshown
  | keepFirst => exact hshown.onDuplicates (fun _ _ hg ↦ deleteWords_shown hg hmode fun _ ↦ hshown) h
  | leave =>
    cases h
    exact exitDuplicates e

end DuplicatesShown

/-! ## Runs of the duplicates mode -/

/-- The editors reached from an editor by commands of the duplicates mode, with any
arguments. -/
inductive DuplicatesRun (e₀ : Editor) : Editor → Prop
  | refl : DuplicatesRun e₀ e₀
  | step {e e' : Editor} {o : Commands.Outcome} (c : DuplicatesCommand) (args : List String) :
      DuplicatesRun e₀ e → e.perform c.name args = .ok (o, e') → DuplicatesRun e₀ e'

theorem DuplicatesRun.shown {e₀ : Editor} (h₀ : DuplicatesShown e₀) (hrun : DuplicatesRun e₀ e) :
    DuplicatesShown e := by
  induction hrun with
  | refl => exact h₀
  | step c args _ hperform ih =>
    rw [perform_duplicatesCommand] at hperform
    exact ih.apply c (reportStep_ok hperform)

/-- From an editor that shows no duplicates, every run of commands of the duplicates mode
ends with groups that are those of the line: the editor is in the duplicates mode, each
group has at least two ascending positions and its current word among them, the groups come
in the order of their first positions and share none, the current group is one of them, and
their categories and positions are the duplicates of the line's words as the matcher finds
them. There is then a current word exactly when there is a group, and it is one of the
words highlighted. -/
theorem shows_duplicates_of_run {e₀ : Editor} {d : Duplicates} (h₀ : e₀.duplicates = none)
    (hrun : DuplicatesRun e₀ e) (hd : e.duplicates = some d) :
    e.ShowsDuplicates d ∧ (d.currentIndex?.isSome ↔ d.groups ≠ []) ∧
      ∀ i, d.currentIndex? = some i → i ∈ d.view.highlighted := by
  have hstart : DuplicatesShown e₀ := by
    intro d hd
    rw [h₀] at hd
    cases hd
  have hshown : e.ShowsDuplicates d := hrun.shown hstart d hd
  exact ⟨hshown, hshown.wellFormed.current_highlighted⟩

/-- A host on which no program can be started. -/
def quietHost : Host :=
  { files := {}, cwd := [], env := [], behaviour := fun _ _ ↦ .error .execFormat }

/-- On the line `gcc -x -x`, where `-x` is a flag of `gcc`, showing the duplicates shows
groups that are those of the line. -/
theorem shows_duplicates_of_repeated_flag :
    ∃ e₀ e d, make gccFlagConfig none "gcc -x -x" quietHost = .ok e₀ ∧ e₀.duplicates = none ∧
      DuplicatesRun e₀ e ∧ e.duplicates = some d ∧
      (e.ShowsDuplicates d ∧ (d.currentIndex?.isSome ↔ d.groups ≠ []) ∧
        ∀ i, d.currentIndex? = some i → i ∈ d.view.highlighted) := by
  have hcomp : ((make gccFlagConfig none "gcc -x -x" quietHost).toOption.bind fun e₀ ↦
      (e₀.perform "show-duplicates" []).toOption).map (·.2.duplicates.isSome) = some true := by
    decide +kernel
  cases hmake : make gccFlagConfig none "gcc -x -x" quietHost with
  | error err => simp [hmake, Except.toOption] at hcomp
  | ok e₀ =>
    cases hshow : e₀.perform "show-duplicates" [] with
    | error err => simp [hmake, hshow, Except.toOption] at hcomp
    | ok r =>
      obtain ⟨o, e⟩ := r
      cases hd : e.duplicates with
      | none => simp [hmake, hshow, hd, Except.toOption] at hcomp
      | some d =>
        have h₀ : e₀.duplicates = none := make_duplicates hmake
        have hrun : DuplicatesRun e₀ e := .step .enter [] .refl hshow
        exact ⟨e₀, e, d, rfl, h₀, hrun, hd, shows_duplicates_of_run h₀ hrun hd⟩

end Editor

end FlagLine
