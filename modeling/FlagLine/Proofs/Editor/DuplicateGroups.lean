import FlagLine.Editor.Duplicates
/-!
# Groups of duplicate flags

The words of a line that flags matched are gathered by category, and the categories matched
more than once are the duplicates. Main statement: `duplicateFlags_table`, which says that
in every such table each category has at least two positions, in ascending order, the
categories come in the order of their first positions and no position is in two of them.
The groups shown for such a table are well formed and list it exactly
(`Duplicates.ofTable_wellFormed`, `Duplicates.refresh_wellFormed`), and moving through the
groups or selecting them keeps their positions and keeps them well formed
(`Duplicates.KeepsGroups`).
-/

namespace FlagLine

/-- A table of positions by category as duplicates are found: every category has at least
two positions, in ascending order; the categories come in the order of their first
positions, and no position is in two categories. -/
structure DuplicateTable (T : Table (List Nat)) : Prop where
  /-- Every category is matched at least twice. -/
  repeated : ∀ e ∈ T, 2 ≤ e.2.length
  /-- The positions of a category ascend. -/
  ascending : ∀ e ∈ T, e.2.Pairwise (· < ·)
  /-- The categories come in the order of their first positions. -/
  ordered : T.Pairwise fun e f ↦ e.2.headD 0 < f.2.headD 0
  /-- No position is in two categories. -/
  disjoint : T.Pairwise fun e f ↦ ∀ i ∈ e.2, i ∉ f.2

/-! ## The table built over a line -/

/-- A table of positions by category built from the words before position `n`: every
category has some positions, ascending and below `n`; the categories come in the order of
their first positions, and no position is in two categories. -/
structure PositionTable (n : Nat) (T : Table (List Nat)) : Prop where
  nonempty : ∀ e ∈ T, e.2 ≠ []
  ascending : ∀ e ∈ T, e.2.Pairwise (· < ·)
  below : ∀ e ∈ T, ∀ i ∈ e.2, i < n
  ordered : T.Pairwise fun e f ↦ e.2.headD 0 < f.2.headD 0
  disjoint : T.Pairwise fun e f ↦ ∀ i ∈ e.2, i ∉ f.2

/-- Adding a word's position to the table of its category, if a flag matched it. -/
def duplicateStep (t : Table (List Nat)) (p : WordMatch × Nat) : Table (List Nat) :=
  if p.1.matched && p.1.flag.isSome then
    t.insert p.1.category ((t.find? p.1.category).getD [] ++ [p.2])
  else t

theorem duplicateFlags_eq (results : List WordMatch) :
    duplicateFlags results =
      ((results.zipIdx).foldl duplicateStep []).filter fun e ↦ e.2.length > 1 :=
  rfl

theorem Table.insert_of_find?_none {α : Type} {T : Table α} {k : String} {v : α}
    (h : T.find? k = none) : T.insert k v = T ++ [(k, v)] := by
  induction T with
  | nil => rfl
  | cons e rest ih =>
    obtain ⟨k', v'⟩ := e
    by_cases hk : k = k'
    · simp [Table.find?, hk] at h
    · simp only [Table.find?, hk, if_false] at h
      simp [Table.insert, hk, ih h]

theorem Table.insert_of_find?_some {α : Type} {T : Table α} {k : String} {v v₀ : α}
    (h : T.find? k = some v₀) :
    ∃ pre post, T = pre ++ (k, v₀) :: post ∧ T.insert k v = pre ++ (k, v) :: post := by
  induction T with
  | nil => cases h
  | cons e rest ih =>
    obtain ⟨k', v'⟩ := e
    by_cases hk : k = k'
    · subst hk
      simp only [Table.find?, if_true, Option.some.injEq] at h
      subst h
      exact ⟨[], rest, rfl, by simp [Table.insert]⟩
    · simp only [Table.find?, hk, if_false] at h
      obtain ⟨pre, post, hT, hins⟩ := ih h
      exact ⟨(k', v') :: pre, post, by simp [hT], by simp [Table.insert, hk, hins]⟩

/-- Replacing one member of a list keeps a relation between all pairs of members when the
new member stands in it wherever the old one did. -/
theorem pairwise_replace {α : Type} {R : α → α → Prop} {pre post : List α} {x x' : α}
    (h : (pre ++ x :: post).Pairwise R) (hl : ∀ y ∈ pre, R y x → R y x')
    (hr : ∀ y ∈ post, R x y → R x' y) : (pre ++ x' :: post).Pairwise R := by
  rw [List.pairwise_append, List.pairwise_cons] at h ⊢
  obtain ⟨hpre, ⟨hx, hpost⟩, hcross⟩ := h
  refine ⟨hpre, ⟨fun y hy ↦ hr y hy (hx y hy), hpost⟩, fun a ha b hb ↦ ?_⟩
  rcases List.mem_cons.mp hb with rfl | hb
  · exact hl a ha (hcross a ha _ (List.mem_cons_self ..))
  · exact hcross a ha b (List.mem_cons_of_mem _ hb)

theorem headD_lt {l : List Nat} {n : Nat} (hl : l ≠ []) (hbelow : ∀ i ∈ l, i < n) :
    l.headD 0 < n := by
  cases l with
  | nil => exact absurd rfl hl
  | cons a rest => exact hbelow a (List.mem_cons_self ..)

namespace PositionTable

theorem empty : PositionTable 0 [] where
  nonempty := by simp
  ascending := by simp
  below := by simp
  ordered := List.Pairwise.nil
  disjoint := List.Pairwise.nil

theorem mono {n n' : Nat} {T : Table (List Nat)} (hT : PositionTable n T) (hn : n ≤ n') :
    PositionTable n' T where
  nonempty := hT.nonempty
  ascending := hT.ascending
  below e he i hi := Nat.lt_of_lt_of_le (hT.below e he i hi) hn
  ordered := hT.ordered
  disjoint := hT.disjoint

/-- A category seen for the first time starts a new last entry with the position. -/
theorem append_new {n : Nat} {T : Table (List Nat)} (hT : PositionTable n T) (k : String) :
    PositionTable (n + 1) (T ++ [(k, [n])]) where
  nonempty e he := by
    rcases List.mem_append.mp he with he | he
    · exact hT.nonempty e he
    · simp [List.mem_singleton.mp he]
  ascending e he := by
    rcases List.mem_append.mp he with he | he
    · exact hT.ascending e he
    · simp [List.mem_singleton.mp he]
  below e he i hi := by
    rcases List.mem_append.mp he with he | he
    · exact Nat.lt_succ_of_lt (hT.below e he i hi)
    · simp only [List.mem_singleton.mp he, List.mem_singleton] at hi
      omega
  ordered := by
    rw [List.pairwise_append]
    refine ⟨hT.ordered, List.pairwise_singleton _ _, fun e he f hf ↦ ?_⟩
    rw [List.mem_singleton.mp hf]
    exact headD_lt (hT.nonempty e he) (hT.below e he)
  disjoint := by
    rw [List.pairwise_append]
    refine ⟨hT.disjoint, List.pairwise_singleton _ _, fun e he f hf i hi ↦ ?_⟩
    rw [List.mem_singleton.mp hf]
    have := hT.below e he i hi
    simp only [List.mem_singleton]
    omega

theorem append_old {n : Nat} {pre post : Table (List Nat)} {k : String} {v₀ : List Nat}
    (hT : PositionTable n (pre ++ (k, v₀) :: post)) :
    PositionTable (n + 1) (pre ++ (k, v₀ ++ [n]) :: post) := by
  have hmem : (k, v₀) ∈ pre ++ (k, v₀) :: post := by simp
  have hv₀ : v₀ ≠ [] := hT.nonempty _ hmem
  have hv₀below : ∀ i ∈ v₀, i < n := hT.below _ hmem
  have hother : ∀ e ∈ pre ++ post, ∀ i ∈ e.2, i < n := fun e he ↦
    hT.below e (by rcases List.mem_append.mp he with he | he <;> simp [he])
  have hhead : (v₀ ++ [n]).headD 0 = v₀.headD 0 := by
    cases v₀ with
    | nil => exact absurd rfl hv₀
    | cons a rest => rfl
  refine ⟨?_, ?_, ?_, ?_, ?_⟩
  · intro e he
    rcases List.mem_append.mp he with he | he
    · exact hT.nonempty e (by simp [he])
    · rcases List.mem_cons.mp he with rfl | he
      · simp
      · exact hT.nonempty e (by simp [he])
  · intro e he
    rcases List.mem_append.mp he with he | he
    · exact hT.ascending e (by simp [he])
    · rcases List.mem_cons.mp he with rfl | he
      · rw [List.pairwise_append]
        exact ⟨hT.ascending _ hmem, List.pairwise_singleton _ _,
          fun i hi j hj ↦ (List.mem_singleton.mp hj) ▸ hv₀below i hi⟩
      · exact hT.ascending e (by simp [he])
  · intro e he i hi
    rcases List.mem_append.mp he with he | he
    · exact Nat.lt_succ_of_lt (hother e (by simp [he]) i hi)
    · rcases List.mem_cons.mp he with rfl | he
      · rcases List.mem_append.mp hi with hi | hi
        · exact Nat.lt_succ_of_lt (hv₀below i hi)
        · simp only [List.mem_singleton] at hi
          omega
      · exact Nat.lt_succ_of_lt (hother e (by simp [he]) i hi)
  · exact pairwise_replace hT.ordered (fun y _ h ↦ hhead ▸ h) (fun y _ h ↦ hhead ▸ h)
  · refine pairwise_replace hT.disjoint (fun y hy h i hi hn ↦ ?_) (fun y hy h i hi ↦ ?_)
    · rcases List.mem_append.mp hn with hn | hn
      · exact h i hi hn
      · have := hother y (by simp [hy]) i hi
        simp only [List.mem_singleton] at hn
        omega
    · rcases List.mem_append.mp hi with hi | hi
      · exact h i hi
      · simp only [List.mem_singleton] at hi
        intro hy'
        have := hother y (by simp [hy]) i hy'
        omega

theorem step {n : Nat} {T : Table (List Nat)} (hT : PositionTable n T) (r : WordMatch) :
    PositionTable (n + 1) (duplicateStep T (r, n)) := by
  unfold duplicateStep
  dsimp only
  split
  · cases hfind : T.find? r.category with
    | none =>
      rw [Option.getD_none, List.nil_append, Table.insert_of_find?_none hfind]
      exact hT.append_new r.category
    | some v₀ =>
      obtain ⟨pre, post, hT', hins⟩ :=
        Table.insert_of_find?_some (v := v₀ ++ [n]) hfind
      rw [Option.getD_some, hins]
      exact (hT' ▸ hT).append_old
  · exact hT.mono (Nat.le_succ n)

/-- The table built over the words of a line, from position `n` on. -/
theorem foldl (results : List WordMatch) {n : Nat} {T : Table (List Nat)}
    (hT : PositionTable n T) :
    PositionTable (n + results.length) ((results.zipIdx n).foldl duplicateStep T) := by
  induction results generalizing n T with
  | nil => simpa using hT
  | cons r rest ih =>
    rw [List.zipIdx_cons, List.foldl_cons, List.length_cons, ← Nat.add_assoc,
      Nat.add_right_comm]
    exact ih (hT.step r)

end PositionTable

/-- The duplicates of a line: every category has at least two positions, in ascending
order; the categories come in the order of their first positions, and no position is in
two categories. -/
theorem duplicateFlags_table (results : List WordMatch) :
    DuplicateTable (duplicateFlags results) := by
  have hall := PositionTable.foldl results PositionTable.empty
  rw [duplicateFlags_eq]
  refine ⟨?_, ?_, hall.ordered.filter _, hall.disjoint.filter _⟩
  · intro e he
    have := (List.mem_filter.mp he).2
    simp only [gt_iff_lt, decide_eq_true_eq] at this
    omega
  · exact fun e he ↦ hall.ascending e (List.mem_filter.mp he).1

/-! ## The groups shown -/

namespace Duplicates

/-- The categories of the groups shown with their positions. -/
def table (d : Duplicates) : Table (List Nat) := d.groups.map fun g ↦ (g.category, g.indices)

/-- Groups shown as they should be: their categories and positions form a table of
duplicates, each group's current word is one of its words, and the current group is one of
the groups, or the first place when there is none. -/
structure WellFormed (d : Duplicates) : Prop where
  positions : DuplicateTable d.table
  currentIndex : ∀ g ∈ d.groups, g.currentIndex < g.indices.length
  currentGroup : d.currentGroup < d.groups.length ∨ d.groups = [] ∧ d.currentGroup = 0

/-- The groups of a table of duplicates list the table exactly, each at its first word. -/
theorem groupsOf_table {T : Table (List Nat)} (hT : DuplicateTable T) (selected : List String) :
    (groupsOf T selected).map (fun g ↦ (g.category, g.indices)) = T ∧
      ∀ g ∈ groupsOf T selected, g.currentIndex = 0 := by
  -- the table is already in the order of first positions, so sorting keeps it
  have hsorted : groupsOf T selected = T.map fun e ↦
      ({ category := e.1, indices := e.2, selected := selected.contains e.1 } : DuplicateGroup) := by
    unfold groupsOf
    apply List.mergeSort_of_pairwise
    rw [List.pairwise_map]
    exact hT.ordered.imp fun h ↦ by simp only [decide_eq_true_eq]; omega
  rw [hsorted, List.map_map]
  refine ⟨by simp [Function.comp_def], fun g hg ↦ ?_⟩
  obtain ⟨e, -, rfl⟩ := List.mem_map.mp hg
  rfl

/-- The groups of a table of duplicates, the first one current, are well formed and list the
table. -/
theorem ofTable_wellFormed {T : Table (List Nat)} (hT : DuplicateTable T) :
    (ofTable T).WellFormed ∧ (ofTable T).table = T := by
  obtain ⟨hmap, hzero⟩ := groupsOf_table hT []
  have htable : (ofTable T).table = T := hmap
  refine ⟨⟨by rw [htable]; exact hT, fun g hg ↦ ?_, ?_⟩, htable⟩
  · have hmem : (g.category, g.indices) ∈ T := hmap ▸ List.mem_map_of_mem hg
    have htwo : 2 ≤ g.indices.length := hT.repeated _ hmem
    rw [hzero g hg]
    omega
  · cases hg : (ofTable T).groups with
    | nil => exact .inr ⟨rfl, rfl⟩
    | cons g gs => exact .inl (by simp [ofTable])

/-- The groups found again from a table of duplicates are well formed and list the table. -/
theorem refresh_wellFormed (d : Duplicates) {T : Table (List Nat)} (hT : DuplicateTable T) :
    (d.refresh T).WellFormed ∧ (d.refresh T).table = T := by
  obtain ⟨hmap, hzero⟩ := groupsOf_table hT (d.selectedGroups.map (·.category))
  have htable : (d.refresh T).table = T := hmap
  refine ⟨⟨by rw [htable]; exact hT, fun g hg ↦ ?_, ?_⟩, htable⟩
  · have hmem : (g.category, g.indices) ∈ T := hmap ▸ List.mem_map_of_mem hg
    have htwo : 2 ≤ g.indices.length := hT.repeated _ hmem
    rw [hzero g hg]
    omega
  · have hcur : (d.refresh T).currentGroup =
        if d.currentGroup ≥ (d.refresh T).groups.length then (d.refresh T).groups.length - 1
        else d.currentGroup := rfl
    rw [hcur]
    cases (d.refresh T).groups with
    | nil => exact .inr ⟨rfl, by simp⟩
    | cons g gs =>
      left
      simp only [List.length_cons]
      split <;> omega

/-- A change to the groups shown that keeps every group's category and positions and keeps
the groups well formed. -/
def KeepsGroups (f : Duplicates → Duplicates) : Prop :=
  ∀ d, d.WellFormed → (f d).WellFormed ∧ (f d).table = d.table

/-- Groups with the same categories and positions, the same current group and each current
word among its group's words are well formed when the first ones were. -/
theorem WellFormed.of_table {d d' : Duplicates} (hd : d.WellFormed) (htable : d'.table = d.table)
    (hcurrent : ∀ g ∈ d'.groups, g.currentIndex < g.indices.length)
    (hgroup : d'.currentGroup = d.currentGroup) : d'.WellFormed := by
  have hlen : d'.groups.length = d.groups.length := by
    simpa [Duplicates.table] using congrArg List.length htable
  refine ⟨by rw [htable]; exact hd.positions, hcurrent, ?_⟩
  rw [hgroup, ← List.length_eq_zero_iff, hlen, List.length_eq_zero_iff]
  exact hd.currentGroup

/-- Changing the current group alone, keeping its category and positions and its current
word among its words, keeps the groups. -/
theorem keepsGroups_updateCurrent {f : DuplicateGroup → DuplicateGroup}
    (hkey : ∀ g, (f g).category = g.category ∧ (f g).indices = g.indices)
    (hcurrent : ∀ g, g.currentIndex < g.indices.length →
      (f g).currentIndex < (f g).indices.length) :
    KeepsGroups (·.updateCurrent f) := by
  intro d hd
  have htable : (d.updateCurrent f).table = d.table := by
    apply List.ext_getElem (by simp [table, updateCurrent])
    intro n h₁ h₂
    simp only [table, updateCurrent, List.getElem_map, List.getElem_mapIdx]
    split
    · rw [(hkey _).1, (hkey _).2]
    · rfl
  refine ⟨hd.of_table htable (fun g hg ↦ ?_) rfl, htable⟩
  obtain ⟨i, hi, rfl⟩ := List.mem_mapIdx.mp hg
  have hold := hd.currentIndex _ (List.getElem_mem hi)
  split
  · exact hcurrent _ hold
  · exact hold

theorem keepsGroups_nextWord : KeepsGroups nextWord := by
  apply keepsGroups_updateCurrent
  · intro g
    split <;> simp
  · intro g hg
    split
    · exact hg
    · exact Nat.mod_lt _ (by omega)

theorem keepsGroups_previousWord : KeepsGroups previousWord := by
  apply keepsGroups_updateCurrent
  · intro g
    split <;> simp
  · intro g hg
    split
    · exact hg
    · exact Nat.mod_lt _ (by omega)

theorem keepsGroups_selectCurrent (on : Bool) : KeepsGroups (·.selectCurrent on) :=
  keepsGroups_updateCurrent (fun _ ↦ ⟨rfl, rfl⟩) (fun _ h ↦ h)

theorem keepsGroups_nextGroup : KeepsGroups nextGroup := by
  intro d hd
  unfold nextGroup
  split
  · exact ⟨hd, rfl⟩
  · rename_i hne
    refine ⟨⟨hd.positions, hd.currentIndex, .inl (Nat.mod_lt _ ?_)⟩, rfl⟩
    simpa [List.isEmpty_iff, ← List.length_pos_iff] using hne

theorem keepsGroups_previousGroup : KeepsGroups previousGroup := by
  intro d hd
  unfold previousGroup
  split
  · exact ⟨hd, rfl⟩
  · rename_i hne
    refine ⟨⟨hd.positions, hd.currentIndex, .inl (Nat.mod_lt _ ?_)⟩, rfl⟩
    simpa [List.isEmpty_iff, ← List.length_pos_iff] using hne

theorem keepsGroups_selectAll (on : Bool) : KeepsGroups (·.selectAll on) := by
  intro d hd
  have htable : (d.selectAll on).table = d.table := by
    simp [table, selectAll, Function.comp_def]
  refine ⟨hd.of_table htable (fun g hg ↦ ?_) rfl, htable⟩
  obtain ⟨g₀, hg₀, rfl⟩ := List.mem_map.mp hg
  exact hd.currentIndex g₀ hg₀

/-- In well-formed groups there is a current word exactly when there is a group, and the
current word is one of the words shown as duplicates. -/
theorem WellFormed.current_highlighted {d : Duplicates} (hd : d.WellFormed) :
    (d.currentIndex?.isSome ↔ d.groups ≠ []) ∧
      ∀ i, d.currentIndex? = some i → i ∈ d.view.highlighted := by
  refine ⟨⟨fun h hnil ↦ ?_, fun hne ↦ ?_⟩, fun i hi ↦ ?_⟩
  · simp [Duplicates.currentIndex?, Duplicates.current?, hnil] at h
  · rcases hd.currentGroup with hlt | ⟨hnil, -⟩
    · have hg := hd.currentIndex _ (List.getElem_mem hlt)
      simp [Duplicates.currentIndex?, Duplicates.current?, DuplicateGroup.current?, hlt, hg]
    · exact absurd hnil hne
  · simp only [Duplicates.currentIndex?, Duplicates.current?, Option.bind_eq_some_iff,
      List.getElem?_eq_some_iff] at hi
    obtain ⟨g, ⟨hlt, rfl⟩, hcur⟩ := hi
    simp only [DuplicateGroup.current?, List.getElem?_eq_some_iff] at hcur
    obtain ⟨hlt', rfl⟩ := hcur
    simp only [view, List.mem_flatMap]
    exact ⟨_, List.getElem_mem hlt, List.getElem_mem hlt'⟩

end Duplicates

end FlagLine
