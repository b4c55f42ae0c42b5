import Mathlib.Logic.Relation
import Mathlib.Data.List.Chain
import Mathlib.Data.List.MinMax
import Mathlib.Data.List.Nodup
import Mathlib.Data.List.Perm.Subperm
import FlagLine.Proofs.Config.ExpansionLevels
/-!
# When the full expansion of a category finishes

Expanding a category with no level limit follows its maps as deep as they nest. Names are
looked up in small letters, so the maps form a graph on small-letter names: a map points to
the small-letter form of each name it lists (`Config.MapEdge`). Given enough depth, the full
expansion finishes exactly when no cycle of this graph can be reached from the category. A
cycle gives paths of every length, and every step along a path costs a level of depth
(`finishesWithin_transGen`). Without one a path meets each map at most once, so the number
of maps plus one is depth enough (`expandWithin_full_of_acyclic`). A finished full expansion
lists only names that are no maps. Every expansion by at least the category's height, or by
a negative number of levels, gives the same list. Main statement:
`Config.expandWithin_full_iff_acyclic`.
-/

namespace FlagLine

theorem Table.mem_keys_of_find?_eq_some {α : Type} {t : Table α} {k : String} {v : α}
    (h : t.find? k = some v) : k ∈ t.keys := by
  induction t with
  | nil => cases h
  | cons e rest ih =>
    obtain ⟨k', v'⟩ := e
    by_cases hk : k = k'
    · simp [Table.keys, hk]
    · simp only [Table.find?, hk, if_false] at h
      exact List.mem_cons_of_mem k' (ih h)

namespace Config

/-- The graph of category maps on small-letter names: a map points to the small-letter form
of each name it lists. -/
def MapEdge (c : Config) (k k' : String) : Prop :=
  ∃ m, c.categoryMaps.find? k = some m ∧ ∃ y ∈ m.categories, Text.lowerString y = k'

/-- No cycle of the map graph can be reached from a category. -/
def AcyclicFrom (c : Config) (x : String) : Prop :=
  ∀ k, Relation.ReflTransGen c.MapEdge (Text.lowerString x) k → ¬Relation.TransGen c.MapEdge k k

/-- The height of a category, through at most `depth` nested maps: zero for a name that is no
map, one more than the highest of its categories for a map. -/
def heightWithin (c : Config) : Nat → String → Nat
  | 0, _ => 0
  | depth + 1, x =>
    match c.categoryMaps.find? (Text.lowerString x) with
    | none => 0
    | some m => (m.categories.map (c.heightWithin depth)).foldr max 0 + 1

/-- Some name of a node of the map graph expands fully within a depth. -/
def FinishesWithin (c : Config) (d : Nat) (k : String) : Prop :=
  ∃ x L, Text.lowerString x = k ∧ c.expandWithin d x none = .ok L

variable {c : Config} {d d' : Nat} {x : String} {L : List String} {k k' : String}

/-! ## Lists of names -/

section FlatMap

variable {α β ε : Type} {f : α → Except ε (List β)} {l : List α} {B : List β}

theorem flatMapM_ok_of_mem (h : l.flatMapM f = .ok B) {a : α} (ha : a ∈ l) :
    ∃ Ba, f a = .ok Ba := by
  induction l generalizing B with
  | nil => cases ha
  | cons b l ih =>
    obtain ⟨Bb, Bl, hb, hl, rfl⟩ := flatMapM_cons_eq_ok.1 h
    rcases List.mem_cons.1 ha with rfl | ha
    · exact ⟨Bb, hb⟩
    · exact ih hl ha

/-- Each name of an expanded list comes from the expansion of one of its names. -/
theorem flatMapM_ok_mem (h : l.flatMapM f = .ok B) {y : β} (hy : y ∈ B) :
    ∃ a ∈ l, ∃ Ba, f a = .ok Ba ∧ y ∈ Ba := by
  induction l generalizing B with
  | nil =>
    cases h
    cases hy
  | cons b l ih =>
    obtain ⟨Bb, Bl, hb, hl, rfl⟩ := flatMapM_cons_eq_ok.1 h
    rcases List.mem_append.1 hy with hy | hy
    · exact ⟨b, List.mem_cons_self, Bb, hb, hy⟩
    · obtain ⟨a, ha, Ba, hfa, hya⟩ := ih hl hy
      exact ⟨a, List.mem_cons_of_mem b ha, Ba, hfa, hya⟩

end FlatMap

theorem none_ne_level_zero : (none : Option Int) ≠ some 0 := nofun

theorem expandWithin_full_map {m : CategoryMap}
    (hm : c.categoryMaps.find? (Text.lowerString x) = some m) :
    c.expandWithin (d + 1) x none = m.categories.flatMapM (fun y ↦ c.expandWithin d y none) :=
  expandWithin_map hm none_ne_level_zero

/-! ## A cycle cannot be expanded -/

section Cycle

theorem not_finishesWithin_zero : ¬c.FinishesWithin 0 k := by
  rintro ⟨x, L, -, h⟩
  exact expandWithin_zero_ne_ok h

theorem FinishesWithin.edge (h : c.FinishesWithin (d + 1) k) (he : c.MapEdge k k') :
    c.FinishesWithin d k' := by
  obtain ⟨x, L, rfl, hx⟩ := h
  obtain ⟨m, hm, y, hy, rfl⟩ := he
  rw [expandWithin_full_map hm] at hx
  obtain ⟨Ly, hLy⟩ := flatMapM_ok_of_mem hx hy
  exact ⟨y, Ly, rfl, hLy⟩

/-- A path of the map graph of at least one step is followed in less depth. -/
theorem finishesWithin_transGen (hp : Relation.TransGen c.MapEdge k k')
    (h : c.FinishesWithin d k) : ∃ d' < d, c.FinishesWithin d' k' := by
  induction hp with
  | single he =>
    cases d with
    | zero => exact absurd h not_finishesWithin_zero
    | succ d => exact ⟨d, Nat.lt_succ_self d, h.edge he⟩
  | tail _ he ih =>
    obtain ⟨d₁, hd₁, h₁⟩ := ih
    cases d₁ with
    | zero => exact absurd h₁ not_finishesWithin_zero
    | succ d₁ => exact ⟨d₁, by omega, h₁.edge he⟩

/-- A node that expands within some depth lies on no cycle: going round it would take
less depth each time. -/
theorem FinishesWithin.not_cycle (h : c.FinishesWithin d k) : ¬Relation.TransGen c.MapEdge k k := by
  induction d using Nat.strong_induction_on with
  | _ d ih =>
    intro hcycle
    obtain ⟨d', hd', h'⟩ := finishesWithin_transGen hcycle h
    exact ih d' hd' h' hcycle

/-- Every node reachable from a category that expands fully expands within some depth. -/
theorem finishesWithin_of_reach (hp : Relation.ReflTransGen c.MapEdge k k')
    (h : c.FinishesWithin d k) : ∃ d', c.FinishesWithin d' k' := by
  rcases Relation.reflTransGen_iff_eq_or_transGen.1 hp with rfl | hp
  · exact ⟨d, h⟩
  · obtain ⟨d', -, h'⟩ := finishesWithin_transGen hp h
    exact ⟨d', h'⟩

theorem acyclicFrom_of_expandWithin (h : c.expandWithin d x none = .ok L) : c.AcyclicFrom x := by
  intro k hreach
  obtain ⟨d', hk⟩ := finishesWithin_of_reach hreach ⟨x, L, rfl, h⟩
  exact hk.not_cycle

end Cycle

/-! ## Without a cycle the expansion finishes -/

section Acyclic

variable {α : Type} {R : α → α → Prop}

theorem transGen_of_pair_sublist {l : List α} {a b : α} (hl : l.IsChain R)
    (h : List.Sublist [a, b] l) : Relation.TransGen R a b :=
  List.isChain_pair.1 ((hl.imp fun _ _ ↦ Relation.TransGen.single).sublist h)

theorem reflTransGen_of_mem_chain {a b : α} {l : List α} (hl : (a :: l).IsChain R)
    (hb : b ∈ a :: l) : Relation.ReflTransGen R a b := by
  rcases List.mem_cons.1 hb with rfl | hb
  · exact .refl
  · exact (transGen_of_pair_sublist hl (List.Sublist.cons_cons a (List.singleton_sublist.2 hb))).to_reflTransGen

/-- A path with more nodes than there are maps, all of them maps, meets one map twice, and so
reaches a cycle. -/
theorem exists_cycle_of_long_chain {l : List String} (hl : (k :: l).IsChain c.MapEdge)
    (hkeys : ∀ k' ∈ k :: l, k' ∈ c.categoryMaps.keys)
    (hlong : c.categoryMaps.keys.length < (k :: l).length) :
    ∃ k', Relation.ReflTransGen c.MapEdge k k' ∧ Relation.TransGen c.MapEdge k' k' := by
  have hdup : ¬(k :: l).Nodup := fun hnd ↦
    absurd (List.subperm_of_subset hnd hkeys).length_le (Nat.not_le.2 hlong)
  rw [List.nodup_iff_sublist] at hdup
  push Not at hdup
  obtain ⟨a, ha⟩ := hdup
  have hmem : a ∈ k :: l := ha.subset List.mem_cons_self
  exact ⟨a, reflTransGen_of_mem_chain hl hmem, transGen_of_pair_sublist hl ha⟩

/-- A full expansion that does not finish within `d + 1` levels of depth follows a path of
`d + 1` maps from the category. -/
theorem exists_chain_of_not_finished (h : ∀ L, c.expandWithin (d + 1) x none ≠ .ok L) :
    ∃ l : List String, l.length = d ∧ (Text.lowerString x :: l).IsChain c.MapEdge ∧
      ∀ k ∈ Text.lowerString x :: l, k ∈ c.categoryMaps.keys := by
  induction d generalizing x with
  | zero =>
    cases hm : c.categoryMaps.find? (Text.lowerString x) with
    | none => exact absurd (expandWithin_leaf hm) (h [x])
    | some m =>
      refine ⟨[], rfl, .singleton _, ?_⟩
      simpa using Table.mem_keys_of_find?_eq_some hm
  | succ d ih =>
    cases hm : c.categoryMaps.find? (Text.lowerString x) with
    | none => exact absurd (expandWithin_leaf hm) (h [x])
    | some m =>
      have hy : ∃ y ∈ m.categories, ∀ L, c.expandWithin (d + 1) y none ≠ .ok L := by
        by_contra hall
        push Not at hall
        obtain ⟨L, hL⟩ := flatMapM_ok_of_forall hall
        exact h L (by rw [expandWithin_full_map hm, hL])
      obtain ⟨y, hym, hyfail⟩ := hy
      obtain ⟨l, hlen, hchain, hkeys⟩ := ih hyfail
      refine ⟨Text.lowerString y :: l, by simp [hlen], List.IsChain.cons_cons ⟨m, hm, y, hym, rfl⟩ hchain,
        ?_⟩
      intro k hk
      rcases List.mem_cons.1 hk with rfl | hk
      · exact Table.mem_keys_of_find?_eq_some hm
      · exact hkeys k hk

/-- Without a reachable cycle, one more level of depth than there are maps is enough for
the full expansion. -/
theorem expandWithin_full_of_acyclic (h : c.AcyclicFrom x) :
    ∃ L, c.expandWithin (c.categoryMaps.keys.length + 1) x none = .ok L := by
  by_contra hfail
  push Not at hfail
  obtain ⟨l, hlen, hchain, hkeys⟩ := exists_chain_of_not_finished hfail
  obtain ⟨k, hreach, hcycle⟩ := exists_cycle_of_long_chain hchain hkeys (by simp [hlen])
  exact h k hreach hcycle

end Acyclic

/-! ## What a finished full expansion gives -/

section Finished

theorem expandWithin_full_leaves (h : c.expandWithin d x none = .ok L) :
    ∀ y ∈ L, c.categoryMaps.find? (Text.lowerString y) = none := by
  induction d generalizing x L with
  | zero => exact absurd h expandWithin_zero_ne_ok
  | succ d ih =>
    cases hm : c.categoryMaps.find? (Text.lowerString x) with
    | none =>
      rw [expandWithin_leaf hm] at h
      cases h
      intro y hy
      rw [List.mem_singleton.1 hy]
      exact hm
    | some m =>
      rw [expandWithin_full_map hm] at h
      intro y hy
      obtain ⟨z, -, Lz, hz, hyz⟩ := flatMapM_ok_mem h hy
      exact ih hz y hyz

/-- Past the depth a full expansion needs, more depth leaves the height as it is. -/
theorem heightWithin_stable (h : c.expandWithin d x none = .ok L) (hd : d ≤ d') :
    c.heightWithin d' x = c.heightWithin d x := by
  induction d generalizing x L d' with
  | zero => exact absurd h expandWithin_zero_ne_ok
  | succ d ih =>
    obtain ⟨d', rfl⟩ : ∃ d'', d' = d'' + 1 := ⟨d' - 1, by omega⟩
    cases hm : c.categoryMaps.find? (Text.lowerString x) with
    | none => simp [heightWithin, hm]
    | some m =>
      rw [expandWithin_full_map hm] at h
      -- each category finishes within `d`, so its height is already settled there
      have hcats : m.categories.map (c.heightWithin d') = m.categories.map (c.heightWithin d) :=
        List.map_congr_left fun y hy ↦
          let ⟨_, hLy⟩ := flatMapM_ok_of_mem h hy
          ih hLy (by omega)
      simp [heightWithin, hm, hcats]

/-- A finished full expansion is also the expansion by any number of levels at least the
height, or negative. At a map the level is not zero, and one level less still covers the
height of each of its categories. -/
theorem expandWithin_levels_of_full (h : c.expandWithin d x none = .ok L) {k : Int}
    (hk : (c.heightWithin d x : Int) ≤ k ∨ k < 0) : c.expandWithin d x (some k) = .ok L := by
  induction d generalizing x k L with
  | zero => exact absurd h expandWithin_zero_ne_ok
  | succ d ih =>
    cases hm : c.categoryMaps.find? (Text.lowerString x) with
    | none => rwa [expandWithin_leaf hm] at h ⊢
    | some m =>
      have hheight : c.heightWithin (d + 1) x = (m.categories.map (c.heightWithin d)).foldr max 0 + 1 := by
        simp [heightWithin, hm]
      have hk0 : some k ≠ some 0 := by
        simp only [ne_eq, Option.some.injEq]
        omega
      rw [expandWithin_full_map hm] at h
      rw [expandWithin_map hm hk0, Option.map_some]
      refine flatMapM_ok_imp (fun y hy Ly hLy ↦ ih hLy ?_) h
      have hy : c.heightWithin d y ≤ (m.categories.map (c.heightWithin d)).foldr max 0 :=
        List.le_max_of_le' 0 (List.mem_map_of_mem hy) le_rfl
      omega

end Finished

/-- The full expansion of a category finishes, given enough depth, exactly when no cycle of
maps can be reached from it. A finished full expansion lists only names that are no maps,
its height does not change with more depth, and expanding by at least that height, or by a
negative number of levels, gives the same list. -/
theorem expandWithin_full_iff_acyclic (c : Config) (x : String) :
    ((∃ d L, c.expandWithin d x none = .ok L) ↔ c.AcyclicFrom x) ∧
      ∀ d L, c.expandWithin d x none = .ok L →
        (∀ y ∈ L, c.categoryMaps.find? (Text.lowerString y) = none) ∧
          (∀ d', d ≤ d' → c.heightWithin d' x = c.heightWithin d x) ∧
          ∀ k : Int, ((c.heightWithin d x : Int) ≤ k ∨ k < 0) →
            c.expandWithin d x (some k) = .ok L := by
  refine ⟨⟨fun ⟨d, L, h⟩ ↦ acyclicFrom_of_expandWithin h, fun h ↦ ?_⟩, fun d L h ↦ ?_⟩
  · obtain ⟨L, hL⟩ := expandWithin_full_of_acyclic h
    exact ⟨_, L, hL⟩
  · exact ⟨expandWithin_full_leaves h, fun d' hd ↦ heightWithin_stable h hd,
      fun k hk ↦ expandWithin_levels_of_full h hk⟩

end Config

end FlagLine
