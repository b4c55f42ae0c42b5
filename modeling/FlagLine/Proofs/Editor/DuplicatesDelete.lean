import FlagLine.Proofs.Editor.DuplicatesMode
import FlagLine.Proofs.Token.Reread
import FlagLine.Proofs.Token.Join
/-!
# Deleting duplicate words

Keeping, deleting and keeping the first of the duplicates delete words of the line by
position and join the words left with single spaces. The line so built reads back as
exactly the words left, with their values, raw texts and quotes, in order. Keeping deletes,
in each group acted on (the selected groups, or the current group when none is selected),
every word but the current one, or every word but the first; deleting takes out the current
word of the current group. Since the groups shown are those of the line, with distinct
positions, their current words among them and no position in two groups, each group acted
on keeps exactly one word. Main statement: `Editor.duplicates_delete_exactly`.
-/

namespace FlagLine

/-- The words of a list at the positions not in `ps`, in order. -/
def wordsOutside (ts : List Token) (ps : List Nat) : List Token :=
  (ts.zipIdx.filter fun p ↦ !ps.contains p.2).map Prod.fst

theorem wordsOutside_sublist (ts : List Token) (ps : List Nat) : (wordsOutside ts ps).Sublist ts := by
  have h := ((List.filter_sublist (p := fun p : Token × Nat ↦ !ps.contains p.2)
    (l := ts.zipIdx)).map Prod.fst)
  rwa [List.zipIdx_map_fst] at h

@[simp] theorem wordsOutside_nil (ts : List Token) : wordsOutside ts [] = ts := by
  simp [wordsOutside, List.zipIdx_map_fst]

theorem filterMap_raw_eq (l : List (Token × Nat)) (ps : List Nat) :
    l.filterMap (fun (t, i) ↦ if ps.contains i then none else some t.raw) =
      ((l.filter fun p ↦ !ps.contains p.2).map Prod.fst).map Token.raw := by
  induction l with
  | nil => rfl
  | cons p rest ih =>
    obtain ⟨t, i⟩ := p
    by_cases hi : i ∈ ps <;> simp_all

namespace Tokenize

/-- Words kept from a text, joined by their raw texts with single spaces, read back as
themselves. -/
theorem tokensFrom_join_of_sublist {cs : List Char} {S : List Token}
    (hS : S.Sublist (tokensFrom 0 cs)) :
    (tokensFrom 0 (Text.join [' '] (S.map fun t ↦ t.raw.toList))).map Token.form =
      S.map Token.form := by
  obtain ⟨halone, hblank⟩ := rereads_tokensFrom 0 cs
  exact tokensFrom_join S (fun t ht ↦ halone t (hS.subset ht))
    (fun t ht ↦ hblank t ((dropLast_sublist_dropLast hS).subset ht)) 0

end Tokenize

/-! ## The words each group keeps -/

namespace Duplicates

variable {d : Duplicates} {g : DuplicateGroup}

theorem mem_groups_of_mem_acted (hg : g ∈ d.acted) : g ∈ d.groups := by
  unfold acted at hg
  split at hg
  · simp only [current?, Option.mem_toList, List.getElem?_eq_some_iff] at hg
    obtain ⟨h, rfl⟩ := hg
    exact List.getElem_mem h
  · exact (List.mem_filter.1 hg).1

/-- Two groups of a list that share no position are the same group when they have a
position in common. -/
theorem eq_of_mem_indices {l : List DuplicateGroup}
    (hl : l.Pairwise fun g g' ↦ ∀ i ∈ g.indices, i ∉ g'.indices) {g g' : DuplicateGroup}
    (hg : g ∈ l) (hg' : g' ∈ l) {i : Nat} (hi : i ∈ g.indices) (hi' : i ∈ g'.indices) :
    g = g' := by
  induction hl with
  | nil => cases hg
  | @cons a rest ha _ ih =>
    rcases List.mem_cons.1 hg with rfl | hgr
    · rcases List.mem_cons.1 hg' with rfl | hgr'
      · rfl
      · exact absurd hi' (ha _ hgr' i hi)
    · rcases List.mem_cons.1 hg' with rfl | hgr'
      · exact absurd hi (ha _ hgr i hi')
      · exact ih hgr hgr'

/-- Deleting, from each of some groups that share no position, every word but a chosen one
keeps, of each group, exactly its chosen word. -/
theorem kept_iff_chosen {l : List DuplicateGroup}
    (hl : l.Pairwise fun g g' ↦ ∀ i ∈ g.indices, i ∉ g'.indices)
    (choice : DuplicateGroup → Option Nat) (hg : g ∈ l) {c : Nat} (hc : choice g = some c)
    {j : Nat} (hj : j ∈ g.indices) :
    (¬∃ g' ∈ l, j ∈ g'.indices ∧ choice g' ≠ some j) ↔ j = c := by
  constructor
  · intro h
    by_contra hne
    exact h ⟨g, hg, hj, by rw [hc]; exact fun heq ↦ hne (Option.some.inj heq).symm⟩
  · rintro rfl ⟨g', hg', hj', hne⟩
    obtain rfl := eq_of_mem_indices hl hg hg' hj hj'
    exact hne hc

theorem mem_table (hg : g ∈ d.groups) : (g.category, g.indices) ∈ d.table :=
  List.mem_map_of_mem hg

namespace WellFormed

variable (hd : d.WellFormed)
include hd

theorem acted_disjoint : d.acted.Pairwise fun g g' ↦ ∀ i ∈ g.indices, i ∉ g'.indices := by
  have hgroups : d.groups.Pairwise fun g g' ↦ ∀ i ∈ g.indices, i ∉ g'.indices := by
    simpa [table, List.pairwise_map] using hd.positions.disjoint
  unfold acted
  split
  · cases d.current? <;> simp
  · exact hgroups.filter _

theorem current?_eq_some (hg : g ∈ d.groups) : ∃ c, g.current? = some c :=
  ⟨_, List.getElem?_eq_getElem (hd.currentIndex g hg)⟩

theorem head?_eq_some (hg : g ∈ d.groups) : ∃ c, g.indices.head? = some c := by
  have htwo : 2 ≤ g.indices.length := hd.positions.repeated _ (mem_table hg)
  cases h : g.indices with
  | nil => simp [h] at htwo
  | cons c rest => exact ⟨c, rfl⟩

/-- A position is among a group's words but its first exactly when it is one of them and
not the first. -/
theorem mem_drop_one_iff (hg : g ∈ d.groups) {i : Nat} :
    i ∈ g.indices.drop 1 ↔ i ∈ g.indices ∧ g.indices.head? ≠ some i := by
  have hnodup : g.indices.Nodup :=
    (hd.positions.ascending _ (mem_table hg)).imp (fun h ↦ Nat.ne_of_lt h)
  cases h : g.indices with
  | nil => simp
  | cons a rest =>
    rw [h, List.nodup_cons] at hnodup
    simp only [List.drop_one, List.tail_cons, List.mem_cons, List.head?_cons, ne_eq,
      Option.some.injEq]
    constructor
    · intro hi
      exact ⟨.inr hi, fun hai ↦ hnodup.1 (hai ▸ hi)⟩
    · rintro ⟨rfl | hi, hne⟩
      · exact absurd rfl hne
      · exact hi

end WellFormed

theorem mem_keepCurrentDeletes {i : Nat} :
    i ∈ d.keepCurrentDeletes ↔ ∃ g ∈ d.acted, i ∈ g.indices ∧ g.current? ≠ some i := by
  simp [keepCurrentDeletes, @eq_comm _ (some i)]

theorem mem_keepFirstDeletes (hd : d.WellFormed) {i : Nat} :
    i ∈ d.keepFirstDeletes ↔ ∃ g ∈ d.acted, i ∈ g.indices ∧ g.indices.head? ≠ some i := by
  simp only [keepFirstDeletes, List.mem_flatMap]
  exact exists_congr fun g ↦ and_congr_right fun hg ↦
    hd.mem_drop_one_iff (mem_groups_of_mem_acted hg)

/-- Taking out the current word of well-formed groups takes out the current word of the
current group, if there is a group. -/
theorem takeCurrent_fst (hd : d.WellFormed) : d.takeCurrent.map Prod.fst = d.currentIndex? := by
  unfold takeCurrent currentIndex?
  cases hc : d.current? with
  | none => rfl
  | some g =>
    have hg : g ∈ d.groups := by
      simp only [current?, List.getElem?_eq_some_iff] at hc
      obtain ⟨h, rfl⟩ := hc
      exact List.getElem_mem h
    have htwo : 2 ≤ g.indices.length := hd.positions.repeated _ (mem_table hg)
    obtain ⟨c, hcur⟩ := hd.current?_eq_some hg
    simp [hcur, show ¬g.indices.length ≤ 1 by omega]

end Duplicates

namespace Editor

variable {e e' : Editor}

theorem matchResults_buffer {rs : List WordMatch} (h : e.matchResults = .ok (rs, e')) :
    e'.buffer = e.buffer := by
  unfold matchResults at h
  obtain ⟨⟨rs₀, m⟩, -, h⟩ := Except.bind_eq_ok h
  cases h
  rfl

theorem refreshDuplicates_buffer (h : e.refreshDuplicates = .ok e') : e'.buffer = e.buffer := by
  unfold refreshDuplicates at h
  obtain ⟨⟨rs, e₁⟩, hr, h⟩ := Except.bind_eq_ok h
  cases h
  show e₁.buffer = e.buffer
  exact matchResults_buffer hr

/-- Deleting words by position leaves a line whose words are the others, with their values,
raw texts and quotes, in order. -/
theorem deleteWords_tokens {ps : List Nat} (h : e.deleteWords ps = .ok e') :
    e'.tokens.map Token.form = (wordsOutside e.tokens ps).map Token.form := by
  unfold deleteWords at h
  split at h
  · next hempty =>
    cases h
    rw [List.isEmpty_iff.1 hempty, wordsOutside_nil]
  · have hbuf := refreshDuplicates_buffer h
    have hline : e'.tokens = Tokenize.tokensFrom 0
        (Text.join [' '] ((wordsOutside e.tokens ps).map fun t ↦ t.raw.toList)) := by
      simp only [tokens, hbuf, edit, Buffer.replace, Buffer.line, tokenize, String.toList_ofList,
        toList_intercalate_space, filterMap_raw_eq, wordsOutside, List.map_map]
      rfl
    rw [hline]
    exact Tokenize.tokensFrom_join_of_sublist (wordsOutside_sublist _ _)

/-! ## The commands -/

variable {d : Duplicates}

/-- Deleting, in each group acted on, every word but a chosen one, when each group shown has
a chosen word: the line left has the other words, and each group acted on keeps exactly its
chosen word. -/
theorem keepChosen_deletes (hshown : e.ShowsDuplicates d) (choice : DuplicateGroup → Option Nat)
    (hchoice : ∀ g ∈ d.groups, ∃ c, choice g = some c) {D : List Nat}
    (hD : ∀ i, i ∈ D ↔ ∃ g ∈ d.acted, i ∈ g.indices ∧ choice g ≠ some i)
    (hdel : e.deleteWords D = .ok e') :
    ∃ D : List Nat, (∀ i, i ∈ D ↔ ∃ g ∈ d.acted, i ∈ g.indices ∧ choice g ≠ some i) ∧
      e'.tokens.map Token.form = (wordsOutside e.tokens D).map Token.form ∧
      ∀ g ∈ d.acted, ∃ c, choice g = some c ∧ ∀ j ∈ g.indices, (j ∉ D ↔ j = c) := by
  refine ⟨D, hD, deleteWords_tokens hdel, fun g hg ↦ ?_⟩
  obtain ⟨c, hc⟩ := hchoice g (Duplicates.mem_groups_of_mem_acted hg)
  refine ⟨c, hc, fun j hj ↦ ?_⟩
  rw [hD]
  exact Duplicates.kept_iff_chosen hshown.wellFormed.acted_disjoint choice hg hc hj

/-- Keeping the current duplicates deletes, in each group acted on, every word but the
current one. -/
theorem keepCurrent_deletes (hshown : e.ShowsDuplicates d) (hd : e.duplicates = some d)
    (h : DuplicatesCommand.keepCurrent.apply e = .ok e') :
    ∃ D : List Nat, (∀ i, i ∈ D ↔ ∃ g ∈ d.acted, i ∈ g.indices ∧ g.current? ≠ some i) ∧
      e'.tokens.map Token.form = (wordsOutside e.tokens D).map Token.form ∧
      ∀ g ∈ d.acted, ∃ c, g.current? = some c ∧ ∀ j ∈ g.indices, (j ∉ D ↔ j = c) := by
  have hdel : e.deleteWords d.keepCurrentDeletes = .ok e' := by
    simpa only [DuplicatesCommand.apply, onDuplicates, hd] using h
  exact keepChosen_deletes hshown DuplicateGroup.current?
    (fun _ hg ↦ hshown.wellFormed.current?_eq_some hg)
    (fun _ ↦ Duplicates.mem_keepCurrentDeletes) hdel

/-- Keeping the first duplicates deletes, in each group acted on, every word but the
first. -/
theorem keepFirst_deletes (hshown : e.ShowsDuplicates d) (hd : e.duplicates = some d)
    (h : DuplicatesCommand.keepFirst.apply e = .ok e') :
    ∃ D : List Nat, (∀ i, i ∈ D ↔ ∃ g ∈ d.acted, i ∈ g.indices ∧ g.indices.head? ≠ some i) ∧
      e'.tokens.map Token.form = (wordsOutside e.tokens D).map Token.form ∧
      ∀ g ∈ d.acted, ∃ c, g.indices.head? = some c ∧ ∀ j ∈ g.indices, (j ∉ D ↔ j = c) := by
  have hdel : e.deleteWords d.keepFirstDeletes = .ok e' := by
    simpa only [DuplicatesCommand.apply, onDuplicates, hd] using h
  exact keepChosen_deletes hshown (·.indices.head?)
    (fun _ hg ↦ hshown.wellFormed.head?_eq_some hg)
    (fun _ ↦ Duplicates.mem_keepFirstDeletes hshown.wellFormed) hdel

/-- Deleting the current duplicate deletes the current word of the current group, and
nothing when there is no group. -/
theorem deleteCurrent_deletes (hshown : e.ShowsDuplicates d) (hd : e.duplicates = some d)
    (h : DuplicatesCommand.deleteCurrent.apply e = .ok e') :
    e'.tokens.map Token.form = (wordsOutside e.tokens d.currentIndex?.toList).map Token.form := by
  have hfst := Duplicates.takeCurrent_fst hshown.wellFormed
  simp only [DuplicatesCommand.apply, onDuplicates, hd] at h
  split at h
  · next i d' htake =>
    rw [htake] at hfst
    rw [← hfst]
    exact deleteWords_tokens (e := { e with duplicates := some d' }) h
  · next htake =>
    cases h
    rw [htake] at hfst
    simp [← hfst]

/-- From an editor that shows no duplicates, after any run of commands of the duplicates mode
that shows groups: keeping the current duplicates leaves exactly the words of the line but
those, in the groups acted on (the selected groups, or the current group when none is
selected), other than each group's current word; keeping the first duplicates does the same
keeping each group's first word; deleting the current duplicate leaves exactly the words but
the current word of the current group. The words left keep their values, raw texts and
quotes, in order, and each group acted on keeps exactly one word. -/
theorem duplicates_delete_exactly {e₀ : Editor} (h₀ : e₀.duplicates = none)
    (hrun : DuplicatesRun e₀ e) (hd : e.duplicates = some d) :
    (∀ args o e', e.perform DuplicatesCommand.keepCurrent.name args = .ok (o, e') →
      ∃ D : List Nat, (∀ i, i ∈ D ↔ ∃ g ∈ d.acted, i ∈ g.indices ∧ g.current? ≠ some i) ∧
        e'.tokens.map Token.form = (wordsOutside e.tokens D).map Token.form ∧
        ∀ g ∈ d.acted, ∃ c, g.current? = some c ∧ ∀ j ∈ g.indices, (j ∉ D ↔ j = c)) ∧
    (∀ args o e', e.perform DuplicatesCommand.keepFirst.name args = .ok (o, e') →
      ∃ D : List Nat, (∀ i, i ∈ D ↔ ∃ g ∈ d.acted, i ∈ g.indices ∧ g.indices.head? ≠ some i) ∧
        e'.tokens.map Token.form = (wordsOutside e.tokens D).map Token.form ∧
        ∀ g ∈ d.acted, ∃ c, g.indices.head? = some c ∧ ∀ j ∈ g.indices, (j ∉ D ↔ j = c)) ∧
    (∀ args o e', e.perform DuplicatesCommand.deleteCurrent.name args = .ok (o, e') →
      e'.tokens.map Token.form = (wordsOutside e.tokens d.currentIndex?.toList).map Token.form) := by
  have hstart : DuplicatesShown e₀ := by
    intro d hd
    rw [h₀] at hd
    cases hd
  have hshown : e.ShowsDuplicates d := hrun.shown hstart d hd
  refine ⟨fun args o e' h ↦ ?_, fun args o e' h ↦ ?_, fun args o e' h ↦ ?_⟩ <;>
    rw [perform_duplicatesCommand] at h
  · exact keepCurrent_deletes hshown hd (reportStep_ok h)
  · exact keepFirst_deletes hshown hd (reportStep_ok h)
  · exact deleteCurrent_deletes hshown hd (reportStep_ok h)

/-- On the line `gcc -x -x -x`, where `-x` is a flag of `gcc`, showing the duplicates shows
groups from which the three commands delete as stated. -/
theorem duplicates_delete_exactly_repeated_flag :
    ∃ e₀ e d, make gccFlagConfig none "gcc -x -x -x" quietHost = .ok e₀ ∧ e₀.duplicates = none ∧
      DuplicatesRun e₀ e ∧ e.duplicates = some d ∧
      ((∀ args o e', e.perform DuplicatesCommand.keepCurrent.name args = .ok (o, e') →
        ∃ D : List Nat, (∀ i, i ∈ D ↔ ∃ g ∈ d.acted, i ∈ g.indices ∧ g.current? ≠ some i) ∧
          e'.tokens.map Token.form = (wordsOutside e.tokens D).map Token.form ∧
          ∀ g ∈ d.acted, ∃ c, g.current? = some c ∧ ∀ j ∈ g.indices, (j ∉ D ↔ j = c)) ∧
      (∀ args o e', e.perform DuplicatesCommand.keepFirst.name args = .ok (o, e') →
        ∃ D : List Nat, (∀ i, i ∈ D ↔ ∃ g ∈ d.acted, i ∈ g.indices ∧ g.indices.head? ≠ some i) ∧
          e'.tokens.map Token.form = (wordsOutside e.tokens D).map Token.form ∧
          ∀ g ∈ d.acted, ∃ c, g.indices.head? = some c ∧ ∀ j ∈ g.indices, (j ∉ D ↔ j = c)) ∧
      (∀ args o e', e.perform DuplicatesCommand.deleteCurrent.name args = .ok (o, e') →
        e'.tokens.map Token.form = (wordsOutside e.tokens d.currentIndex?.toList).map Token.form)) := by
  have hcomp : ((make gccFlagConfig none "gcc -x -x -x" quietHost).toOption.bind fun e₀ ↦
      (e₀.perform "show-duplicates" []).toOption).map (·.2.duplicates.isSome) = some true := by
    decide +kernel
  cases hmake : make gccFlagConfig none "gcc -x -x -x" quietHost with
  | error err => simp [hmake, Except.toOption] at hcomp
  | ok e₀ =>
    cases hshow : e₀.perform "show-duplicates" [] with
    | error err => simp [hmake, hshow, Except.toOption] at hcomp
    | ok r =>
      obtain ⟨o, e⟩ := r
      cases hd : e.duplicates with
      | none => simp [hmake, hshow, hd, Except.toOption] at hcomp
      | some d =>
        have h₀ : e₀.duplicates = none := make_duplicates hmake
        have hrun : DuplicatesRun e₀ e := .step .enter [] .refl hshow
        exact ⟨e₀, e, d, rfl, h₀, hrun, hd, duplicates_delete_exactly h₀ hrun hd⟩

end Editor

end FlagLine
