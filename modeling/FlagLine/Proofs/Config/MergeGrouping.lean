import FlagLine.Data.Merge
/-!
# Grouping merges

Merging dictionaries is associative, key order included, as long as two things hold. First,
the dictionaries laid over others name each entry once, as every dictionary of YAML data
does. Second, no key switches kind: where the first and the last of three dictionaries hold
lists under a key, the middle one holds a list there too, and likewise for dictionaries.
At such a switch, merging the first two replaces the first's list and the last list then
replaces the middle value. Merging the last two first keeps the last list, and that list
then extends the first's. So merging the drop-in files among themselves and then over the
main file gives the data of merging the files one after another, unless some file switches a
key back to the kind that the main file and the files before it gave it.
-/

namespace FlagLine.Value

/-! ## Keys that name one entry each -/

/-- No two keys of the entries name the same entry. -/
def DistinctKeys (es : List (Value × Value)) : Prop :=
  (es.map Prod.fst).Pairwise (fun a b => sameKey a b = false)

instance (es : List (Value × Value)) : Decidable (DistinctKeys es) :=
  inferInstanceAs (Decidable (List.Pairwise _ _))

/-- Every dictionary reached through dictionaries names each entry once. -/
inductive Keyed : Value → Prop where
  | dict {es : List (Value × Value)} : DistinctKeys es → (∀ e ∈ es, Keyed e.2) → Keyed (.dict es)
  | other {v : Value} : (∀ es, v ≠ .dict es) → Keyed v

theorem Keyed.distinctKeys {es : List (Value × Value)} (h : Keyed (.dict es)) :
    DistinctKeys es := by
  cases h with
  | dict hd _ => exact hd
  | other hne => exact absurd rfl (hne es)

theorem Keyed.values {es : List (Value × Value)} (h : Keyed (.dict es)) :
    ∀ e ∈ es, Keyed e.2 := by
  cases h with
  | dict _ hv => exact hv
  | other hne => exact absurd rfl (hne es)

/-! ## Looking keys up -/

section Lookup

variable {j k : Value} {es : List (Value × Value)}

theorem sameKey_congr_left (h : sameKey j k = true) (y : Value) :
    sameKey j y = sameKey k y := by
  apply Bool.eq_iff_iff.2
  constructor
  · exact sameKey_trans (by rw [sameKey_comm]; exact h)
  · exact sameKey_trans h

theorem sameKey_congr_right (h : sameKey j k = true) (y : Value) :
    sameKey y j = sameKey y k := by
  rw [sameKey_comm y j, sameKey_comm y k]
  exact sameKey_congr_left h y

/-- A key that does not name an entry does not name it under another key that does. -/
theorem sameKey_false_of_sameKey {y : Value} (hky : sameKey k y = true) (h : sameKey j k = false) :
    sameKey j y = false := by
  rw [← sameKey_congr_right hky]
  exact h

@[simp] theorem lookup_nil : lookup k [] = none := rfl

theorem lookup_cons (y w : Value) (rest : List (Value × Value)) :
    lookup k ((y, w) :: rest) = if sameKey k y then some w else lookup k rest := rfl

theorem lookup_congr (h : sameKey j k = true) (es : List (Value × Value)) :
    lookup j es = lookup k es := by
  induction es with
  | nil => rfl
  | cons e rest ih =>
    obtain ⟨y, w⟩ := e
    simp only [lookup_cons, sameKey_congr_left h, ih]

theorem lookup_isSome_iff :
    (lookup k es).isSome ↔ ∃ y ∈ es.map Prod.fst, sameKey k y = true := by
  induction es with
  | nil => simp
  | cons e rest ih =>
    obtain ⟨y, w⟩ := e
    by_cases hy : sameKey k y <;> simp [lookup_cons, hy, ih]

theorem lookup_eq_none_iff :
    lookup k es = none ↔ ∀ y ∈ es.map Prod.fst, sameKey k y = false := by
  rw [← Option.not_isSome_iff_eq_none, lookup_isSome_iff]
  simp

theorem mem_of_lookup {v : Value} (h : lookup k es = some v) :
    ∃ y, (y, v) ∈ es ∧ sameKey k y = true := by
  induction es with
  | nil => simp at h
  | cons e rest ih =>
    obtain ⟨y, w⟩ := e
    by_cases hy : sameKey k y
    · simp only [lookup_cons, hy, if_true, Option.some.injEq] at h
      exact ⟨y, by simp [h], hy⟩
    · simp only [lookup_cons, hy] at h
      obtain ⟨y', hm, hs⟩ := ih h
      exact ⟨y', List.mem_cons_of_mem _ hm, hs⟩

end Lookup

/-! ## Laying one entry over others -/

section MergeOne

variable {j k : Value} {v w : Value} {A B Y : List (Value × Value)}

@[simp] theorem mergeOne_nil : mergeOne [] k v = [(k, v)] := by
  rw [mergeOne]

theorem mergeOne_cons (y u : Value) (rest : List (Value × Value)) :
    mergeOne ((y, u) :: rest) k v =
      if sameKey k y then (y, mergeValue u v) :: rest else (y, u) :: mergeOne rest k v := by
  rw [mergeOne]

/-- Laying an entry over others keeps their keys, and adds its own key at the end when none
of them names its entry. -/
theorem keys_mergeOne :
    (mergeOne A k v).map Prod.fst =
      if (lookup k A).isSome then A.map Prod.fst else A.map Prod.fst ++ [k] := by
  induction A with
  | nil => simp
  | cons e rest ih =>
    obtain ⟨y, u⟩ := e
    by_cases hy : sameKey k y
    · simp [mergeOne_cons, lookup_cons, hy]
    · rw [mergeOne_cons, lookup_cons, if_neg hy, if_neg hy, List.map_cons, ih]
      split <;> simp

theorem lookup_mergeOne_isSome_of_isSome (h : (lookup j A).isSome) :
    (lookup j (mergeOne A k v)).isSome := by
  rw [lookup_isSome_iff] at h ⊢
  obtain ⟨y, hy, hjy⟩ := h
  refine ⟨y, ?_, hjy⟩
  rw [keys_mergeOne]
  split <;> simp [hy]

/-- After an entry is laid over others, a key naming its entry is present. -/
theorem lookup_mergeOne_isSome (h : sameKey j k = true) :
    (lookup j (mergeOne A k v)).isSome := by
  rw [lookup_isSome_iff, keys_mergeOne]
  split
  · next hk =>
    obtain ⟨y, hy, hky⟩ := lookup_isSome_iff.1 hk
    exact ⟨y, hy, sameKey_trans h hky⟩
  · exact ⟨k, by simp, h⟩

/-- Laying an entry over others leaves the value under any other key as it was. -/
theorem lookup_mergeOne_of_sameKey_false (h : sameKey j k = false) :
    lookup j (mergeOne A k v) = lookup j A := by
  induction A with
  | nil => simp [lookup_cons, h]
  | cons e rest ih =>
    obtain ⟨y, u⟩ := e
    by_cases hky : sameKey k y
    · simp [mergeOne_cons, lookup_cons, hky, sameKey_false_of_sameKey hky h]
    · by_cases hjy : sameKey j y <;> simp [mergeOne_cons, lookup_cons, hky, hjy, ih]

theorem DistinctKeys.mergeOne (hA : DistinctKeys A) : DistinctKeys (mergeOne A k v) := by
  unfold DistinctKeys at hA ⊢
  rw [keys_mergeOne]
  split
  · exact hA
  · next hk =>
    have hnone : lookup k A = none := by simpa using hk
    refine List.pairwise_append.2 ⟨hA, by simp, fun y hy z hz => ?_⟩
    simp only [List.mem_singleton] at hz
    subst hz
    rw [sameKey_comm]
    exact lookup_eq_none_iff.1 hnone y hy

/-- Laying entries under two different keys over others commutes, once the first key is
present: neither lands on the other's entry, and neither is added at the end. -/
theorem mergeOne_comm (hj : (lookup j Y).isSome) (hne : sameKey j k = false) :
    mergeOne (mergeOne Y k v) j w = mergeOne (mergeOne Y j w) k v := by
  induction Y with
  | nil => simp at hj
  | cons e rest ih =>
    obtain ⟨y, u⟩ := e
    by_cases hky : sameKey k y
    · simp [mergeOne_cons, hky, sameKey_false_of_sameKey hky hne]
    · by_cases hjy : sameKey j y
      · simp [mergeOne_cons, hky, hjy]
      · have hj' : (lookup j rest).isSome := by simpa [lookup_cons, hjy] using hj
        simp [mergeOne_cons, hky, hjy, ih hj']

/-- Laying an entry twice under keys naming one entry merges the two values in turn, which is
laying their merge once when merging values associates there. -/
theorem mergeOne_mergeOne_of_sameKey (h : sameKey j k = true)
    (hassoc : ∀ u, lookup k A = some u →
      mergeValue (mergeValue u v) w = mergeValue u (mergeValue v w)) :
    mergeOne (mergeOne A k v) j w = mergeOne A k (mergeValue v w) := by
  induction A with
  | nil => simp [mergeOne_cons, h]
  | cons e rest ih =>
    obtain ⟨y, u⟩ := e
    by_cases hky : sameKey k y
    · have hjy : sameKey j y = true := sameKey_trans h hky
      simp [mergeOne_cons, hky, hjy, hassoc u (by simp [lookup_cons, hky])]
    · have hjy : sameKey j y = false := by rw [sameKey_congr_left h]; simpa using hky
      have hassoc' : ∀ u, lookup k rest = some u →
          mergeValue (mergeValue u v) w = mergeValue u (mergeValue v w) := fun u hu =>
        hassoc u (by simpa [lookup_cons, hky] using hu)
      simp [mergeOne_cons, hky, hjy, ih hassoc']

end MergeOne

/-! ## Laying entries over others -/

section MergeEntries

variable {j k : Value} {v w : Value} {A B C Y : List (Value × Value)}

@[simp] theorem mergeEntries_nil : mergeEntries A [] = A := by
  rw [mergeEntries]

theorem mergeEntries_cons (k v : Value) (rest : List (Value × Value)) :
    mergeEntries A ((k, v) :: rest) = mergeEntries (mergeOne A k v) rest := by
  rw [mergeEntries]

theorem DistinctKeys.mergeEntries (hA : DistinctKeys A) (B : List (Value × Value)) :
    DistinctKeys (mergeEntries A B) := by
  induction B generalizing A with
  | nil => simpa using hA
  | cons e rest ih =>
    obtain ⟨k, v⟩ := e
    rw [mergeEntries_cons]
    exact ih hA.mergeOne

/-- An entry under a key already present commutes with entries under other keys. -/
theorem mergeOne_mergeEntries_comm (hj : (lookup j Y).isSome)
    (hB : ∀ e ∈ B, sameKey j e.1 = false) :
    mergeOne (mergeEntries Y B) j w = mergeEntries (mergeOne Y j w) B := by
  induction B generalizing Y with
  | nil => simp
  | cons e rest ih =>
    obtain ⟨k, v⟩ := e
    rw [mergeEntries_cons, mergeEntries_cons,
      ih (lookup_mergeOne_isSome_of_isSome hj) (fun e he => hB e (List.mem_cons_of_mem _ he)),
      mergeOne_comm hj (hB (k, v) List.mem_cons_self)]

/-- Laying an entry over a merge is merging with the entry laid over the upper side, when
that side names each entry once and merging values associates under the entry's key. -/
theorem mergeOne_mergeEntries (hB : DistinctKeys B)
    (hassoc : ∀ u x, lookup j A = some u → lookup j B = some x →
      mergeValue (mergeValue u x) w = mergeValue u (mergeValue x w)) :
    mergeOne (mergeEntries A B) j w = mergeEntries A (mergeOne B j w) := by
  induction B generalizing A with
  | nil => simp [mergeEntries_cons]
  | cons e rest ih =>
    obtain ⟨k, v⟩ := e
    have hrest : DistinctKeys rest := (List.pairwise_cons.1 hB).2
    have hk : ∀ e ∈ rest, sameKey k e.1 = false := fun e he =>
      (List.pairwise_cons.1 hB).1 e.1 (List.mem_map_of_mem he)
    rw [mergeEntries_cons, mergeOne_cons]
    by_cases hjk : sameKey j k
    · rw [if_pos hjk, mergeEntries_cons,
        mergeOne_mergeEntries_comm (lookup_mergeOne_isSome hjk)
          (fun e he => by rw [sameKey_congr_left hjk]; exact hk e he),
        mergeOne_mergeOne_of_sameKey hjk
          (fun u hu => hassoc u v (by rw [lookup_congr hjk]; exact hu)
            (by simp [lookup_cons, hjk]))]
    · rw [if_neg hjk, mergeEntries_cons]
      exact ih hrest (fun u x hu hx => hassoc u x
        (by rw [lookup_mergeOne_of_sameKey_false (by simpa using hjk)] at hu; exact hu)
        (by simpa [lookup_cons, hjk] using hx))

/-- Merging entries associates when the two upper sides name each entry once and merging
values associates under each key of the last side. -/
theorem mergeEntries_assoc (hB : DistinctKeys B) (hC : DistinctKeys C)
    (hassoc : ∀ k v, (k, v) ∈ C → ∀ u x, lookup k A = some u → lookup k B = some x →
      mergeValue (mergeValue u x) v = mergeValue u (mergeValue x v)) :
    mergeEntries (mergeEntries A B) C = mergeEntries A (mergeEntries B C) := by
  induction C generalizing B with
  | nil => simp
  | cons e rest ih =>
    obtain ⟨k, v⟩ := e
    have hrest : DistinctKeys rest := (List.pairwise_cons.1 hC).2
    have hk : ∀ k' ∈ rest.map Prod.fst, sameKey k' k = false := fun k' hk' => by
      rw [sameKey_comm]; exact (List.pairwise_cons.1 hC).1 k' hk'
    rw [mergeEntries_cons, mergeEntries_cons,
      mergeOne_mergeEntries hB (hassoc k v List.mem_cons_self)]
    refine ih hB.mergeOne hrest (fun k' v' hm u x hu hx => ?_)
    rw [lookup_mergeOne_of_sameKey_false (hk k' (List.mem_map_of_mem hm))] at hx
    exact hassoc k' v' (List.mem_cons_of_mem _ hm) u x hu hx

end MergeEntries

/-! ## Keys that keep their kind -/

mutual

/-- Whether `y` keeps the kind of collection that `x` and `z` share, at every key the three
dictionaries have in common: where `x` and `z` are lists `y` is a list, and where they are
dictionaries `y` is a dictionary. -/
def keepsKind : Value → Value → Value → Bool
  | .dict a, .dict b, .dict c => keepsKindEntries a b c
  | .list _, .list _, .list _ => true
  | .list _, _, .list _ => false
  | .dict _, _, .dict _ => false
  | _, _, _ => true

/-- `keepsKind` under each key of `c` that `a` and `b` have. -/
def keepsKindEntries (a b : List (Value × Value)) : List (Value × Value) → Bool
  | [] => true
  | (k, v) :: rest =>
    (match lookup k a, lookup k b with
     | some x, some y => keepsKind x y v
     | _, _ => true) && keepsKindEntries a b rest

end

theorem keepsKindEntries_iff {a b c : List (Value × Value)} :
    keepsKindEntries a b c = true ↔ ∀ k v, (k, v) ∈ c → ∀ x y, lookup k a = some x →
      lookup k b = some y → keepsKind x y v = true := by
  induction c with
  | nil => simp [keepsKindEntries]
  | cons e rest ih =>
    obtain ⟨k, v⟩ := e
    rw [keepsKindEntries, Bool.and_eq_true, ih]
    constructor
    · rintro ⟨hkv, hrest⟩ k' v' hm x y hx hy
      rcases List.mem_cons.1 hm with heq | hm'
      · obtain ⟨rfl, rfl⟩ := Prod.mk.inj heq
        simpa [hx, hy] using hkv
      · exact hrest k' v' hm' x y hx hy
    · intro h
      refine ⟨?_, fun k' v' hm => h k' v' (List.mem_cons_of_mem _ hm)⟩
      split
      · next x y hx hy => exact h k v List.mem_cons_self x y hx hy
      · rfl

/-! ## Merging values -/

@[simp] theorem mergeValue_dict_dict (a b : List (Value × Value)) :
    mergeValue (.dict a) (.dict b) = .dict (mergeEntries a b) := by
  rw [mergeValue]

@[simp] theorem mergeValue_list_list (xs ys : List Value) :
    mergeValue (.list xs) (.list ys) = .list (xs ++ ys) := by
  rw [mergeValue]

theorem mergeValue_of_scalar {z : Value} (hl : ∀ zs, z ≠ .list zs) (hd : ∀ c, z ≠ .dict c)
    (x : Value) : mergeValue x z = z := by
  unfold mergeValue
  split
  · exact absurd rfl (hd _)
  · exact absurd rfl (hl _)
  · rfl

theorem mergeValue_list_of_not_list {x : Value} (hx : ∀ xs, x ≠ .list xs) (zs : List Value) :
    mergeValue x (.list zs) = .list zs := by
  unfold mergeValue
  split <;> simp_all

theorem mergeValue_dict_of_not_dict {x : Value} (hx : ∀ a, x ≠ .dict a)
    (c : List (Value × Value)) : mergeValue x (.dict c) = .dict c := by
  unfold mergeValue
  split <;> simp_all

theorem mergeValue_ne_list {x y : Value} (hy : ∀ ys, y ≠ .list ys) (zs : List Value) :
    mergeValue x y ≠ .list zs := by
  unfold mergeValue
  split
  · simp
  · exact absurd rfl (hy _)
  · exact hy zs

theorem mergeValue_ne_dict {x y : Value} (hy : ∀ b, y ≠ .dict b) (c : List (Value × Value)) :
    mergeValue x y ≠ .dict c := by
  unfold mergeValue
  split
  · exact absurd rfl (hy _)
  · simp
  · exact hy c

/-- Merging over a list associates when the middle value keeps the kind of the outer two. -/
theorem mergeValue_assoc_list {x y : Value} {zs : List Value}
    (hk : keepsKind x y (.list zs) = true) :
    mergeValue (mergeValue x y) (.list zs) = mergeValue x (mergeValue y (.list zs)) := by
  cases y with
  | list ys =>
    cases x with
    | list xs => simp
    | dict a => simp [mergeValue_list_of_not_list]
    | _ => simp [mergeValue_list_of_not_list]
  | dict b =>
    have hxy : ∀ xs, mergeValue x (.dict b) ≠ .list xs := mergeValue_ne_list (by simp)
    rw [mergeValue_list_of_not_list hxy, mergeValue_list_of_not_list (by simp)]
    cases x <;> simp_all [keepsKind, mergeValue_list_of_not_list]
  | _ =>
    rw [mergeValue_list_of_not_list (mergeValue_ne_list (by simp)),
      mergeValue_list_of_not_list (by simp)]
    cases x <;> simp_all [keepsKind, mergeValue_list_of_not_list]

/-- Merging over a dictionary associates when the middle value keeps the kind of the outer two
and is not itself a dictionary. -/
theorem mergeValue_assoc_dict_of_not_dict {x y : Value} {c : List (Value × Value)}
    (hy : ∀ b, y ≠ .dict b) (hk : keepsKind x y (.dict c) = true) :
    mergeValue (mergeValue x y) (.dict c) = mergeValue x (mergeValue y (.dict c)) := by
  rw [mergeValue_dict_of_not_dict (mergeValue_ne_dict hy), mergeValue_dict_of_not_dict hy]
  cases x with
  | dict a => cases y <;> simp_all [keepsKind]
  | _ => simp [mergeValue_dict_of_not_dict]

/-- Merging values associates, key order included, when the upper two name each entry once
and the middle one keeps the kind of the outer two under every key. -/
theorem mergeValue_assoc {x y z : Value} (hy : Keyed y) (hz : Keyed z)
    (hk : keepsKind x y z = true) :
    mergeValue (mergeValue x y) z = mergeValue x (mergeValue y z) := by
  -- by induction on how `z` is keyed: its entries' values carry the hypothesis
  induction hz generalizing x y with
  | @dict c hc _ ih =>
    cases y with
    | dict b =>
      cases x with
      | dict a =>
        have hkc := keepsKindEntries_iff.1 (by simpa [keepsKind] using hk)
        have hassoc : ∀ k v, (k, v) ∈ c → ∀ u w, lookup k a = some u → lookup k b = some w →
            mergeValue (mergeValue u w) v = mergeValue u (mergeValue w v) := by
          intro k v hm u w hu hw
          obtain ⟨_, hwb, _⟩ := mem_of_lookup hw
          exact ih (k, v) hm (hy.values _ hwb) (hkc k v hm u w hu hw)
        simp only [mergeValue_dict_dict, mergeEntries_assoc hy.distinctKeys hc hassoc]
      | _ => simp [mergeValue_dict_of_not_dict]
    | _ => exact mergeValue_assoc_dict_of_not_dict (by simp) hk
  | @other z hz =>
    cases z with
    | list zs => exact mergeValue_assoc_list hk
    | dict c => exact absurd rfl (hz c)
    | _ => simp [mergeValue_of_scalar]

/-! ## Merges stay keyed -/

section Keyed

variable {k v : Value} {A B : List (Value × Value)}

theorem Keyed.of_flat {es : List (Value × Value)} (hd : DistinctKeys es)
    (hv : ∀ e ∈ es, ∀ c, e.2 ≠ .dict c) : Keyed (.dict es) :=
  .dict hd (fun e he => .other (hv e he))

theorem keyed_values_mergeOne (hA : ∀ e ∈ A, Keyed e.2) (hv : Keyed v)
    (hmv : ∀ u, Keyed u → Keyed (mergeValue u v)) : ∀ e ∈ mergeOne A k v, Keyed e.2 := by
  induction A with
  | nil => simpa using hv
  | cons e rest ih =>
    obtain ⟨y, u⟩ := e
    have hu : Keyed u := hA (y, u) List.mem_cons_self
    have hrest : ∀ e ∈ rest, Keyed e.2 := fun e he => hA e (List.mem_cons_of_mem _ he)
    rw [mergeOne_cons]
    split
    · exact List.forall_mem_cons.2 ⟨hmv u hu, hrest⟩
    · exact List.forall_mem_cons.2 ⟨hu, ih hrest⟩

theorem keyed_values_mergeEntries (hA : ∀ e ∈ A, Keyed e.2)
    (hB : ∀ e ∈ B, Keyed e.2 ∧ ∀ u, Keyed u → Keyed (mergeValue u e.2)) :
    ∀ e ∈ mergeEntries A B, Keyed e.2 := by
  induction B generalizing A with
  | nil => simpa using hA
  | cons e rest ih =>
    obtain ⟨k, v⟩ := e
    obtain ⟨hv, hmv⟩ := hB (k, v) List.mem_cons_self
    rw [mergeEntries_cons]
    exact ih (keyed_values_mergeOne hA hv hmv) (fun e he => hB e (List.mem_cons_of_mem _ he))

theorem Keyed.merge {x y : Value} (hx : Keyed x) (hy : Keyed y) : Keyed (mergeValue x y) := by
  induction hy generalizing x with
  | @dict b hb hvals ih =>
    cases x with
    | dict a =>
      rw [mergeValue_dict_dict]
      exact .dict (hx.distinctKeys.mergeEntries b) (keyed_values_mergeEntries hx.values
        (fun e he => ⟨hvals e he, fun _ hu => ih e he hu⟩))
    | _ => simpa [mergeValue_dict_of_not_dict] using Keyed.dict hb hvals
  | other hne => exact .other (mergeValue_ne_dict hne)

end Keyed

end Value

/-! ## Regrouping merges of dictionaries -/

section Regroup

open Value

/-- Merging dictionaries associates, key order included, when the two upper ones are keyed
and the middle one keeps the kinds of the outer two. -/
theorem deepMerge_assoc {a b c : List (Value × Value)} (hb : Keyed (.dict b))
    (hc : Keyed (.dict c)) (hk : keepsKind (.dict a) (.dict b) (.dict c) = true) :
    deepMerge (deepMerge a b) c = deepMerge a (deepMerge b c) := by
  have h := mergeValue_assoc hb hc hk
  simpa only [deepMerge, mergeValue_dict_dict, Value.dict.injEq] using h

/-- Merging files one after another over `acc` and then over `m` gives what merging them one
after another over the merge of `acc` over `m` gives, when each file keeps the kinds of `m`
and of the files merged before it. -/
theorem deepMerge_foldl_regroup {m acc : List (Value × Value)}
    {fs : List (List (Value × Value))} (hacc : Keyed (.dict acc))
    (hfs : ∀ f ∈ fs, Keyed (.dict f))
    (hk : ∀ i (hi : i < fs.length),
      keepsKind (.dict m) (.dict ((fs.take i).foldl deepMerge acc)) (.dict fs[i]) = true) :
    deepMerge m (fs.foldl deepMerge acc) = fs.foldl deepMerge (deepMerge m acc) := by
  induction fs generalizing acc with
  | nil => rfl
  | cons f rest ih =>
    have hf : Keyed (.dict f) := hfs f List.mem_cons_self
    have hacc' : Keyed (.dict (deepMerge acc f)) := by
      simpa only [deepMerge, mergeValue_dict_dict] using hacc.merge hf
    have hrest : ∀ i (hi : i < rest.length),
        keepsKind (.dict m) (.dict ((rest.take i).foldl deepMerge (deepMerge acc f)))
          (.dict rest[i]) = true := fun i hi => by
      have h := hk (i + 1) (by simpa using hi)
      rw [List.getElem_cons_succ] at h
      simpa only [List.take_succ_cons, List.foldl_cons] using h
    have h0 := hk 0 (by simp)
    rw [List.getElem_cons_zero] at h0
    rw [List.foldl_cons, List.foldl_cons,
      ih hacc' (fun f hf => hfs f (List.mem_cons_of_mem _ hf)) hrest, deepMerge_assoc hacc hf h0]

/-- Merging dictionaries associates, key order included, when the two upper ones are keyed and
the middle one keeps the kinds of the outer two; so the drop-in files merged among themselves
and then over the main data give the data of merging them over it one after another, when each
file keeps the kinds of the main data and of the files before it. -/
theorem deepMerge_regroups :
    (∀ a b c : List (Value × Value), Keyed (.dict b) → Keyed (.dict c) →
      keepsKind (.dict a) (.dict b) (.dict c) = true →
      deepMerge (deepMerge a b) c = deepMerge a (deepMerge b c)) ∧
    (∀ (m : List (Value × Value)) (fs : List (List (Value × Value))),
      (∀ f ∈ fs, Keyed (.dict f)) →
      (∀ i (hi : i < fs.length),
        keepsKind (.dict m) (.dict ((fs.take i).foldl deepMerge [])) (.dict fs[i]) = true) →
      deepMerge m (fs.foldl deepMerge []) = fs.foldl deepMerge m) :=
  ⟨fun _ _ _ hb hc hk => deepMerge_assoc hb hc hk,
   fun m _ hfs hk => by
    simpa [deepMerge] using deepMerge_foldl_regroup (m := m) (.dict (by decide) (by simp)) hfs hk⟩

/-- Main data with a list under `flags` and a key of its own. -/
def flagsBase : List (Value × Value) := [(.str "flags", .list [.str "a"]), (.str "x", .int 0)]

/-- A file that sets `x` and extends the list under `flags`. -/
def flagsMiddle : List (Value × Value) := [(.str "x", .int 2), (.str "flags", .list [.str "b"])]

/-- A file that extends the list under `flags` again and adds a key. -/
def flagsLast : List (Value × Value) := [(.str "flags", .list [.str "c"]), (.str "y", .int 4)]

/-- Lists under `flags` in every file: the middle file extends the list too, so the grouping
does not matter, though the keys come in different orders and the last file adds one. -/
theorem deepMerge_regroups_lists :
    (Keyed (.dict flagsMiddle) ∧ Keyed (.dict flagsLast) ∧
      keepsKind (.dict flagsBase) (.dict flagsMiddle) (.dict flagsLast) = true ∧
      deepMerge (deepMerge flagsBase flagsMiddle) flagsLast =
        deepMerge flagsBase (deepMerge flagsMiddle flagsLast)) ∧
    ((∀ i (hi : i < [flagsMiddle, flagsLast].length),
        keepsKind (.dict flagsBase) (.dict (([flagsMiddle, flagsLast].take i).foldl deepMerge []))
          (.dict [flagsMiddle, flagsLast][i]) = true) ∧
      deepMerge flagsBase ([flagsMiddle, flagsLast].foldl deepMerge []) =
        [flagsMiddle, flagsLast].foldl deepMerge flagsBase) := by
  have hb : Keyed (.dict flagsMiddle) := .of_flat (by decide) (by simp [flagsMiddle])
  have hc : Keyed (.dict flagsLast) := .of_flat (by decide) (by simp [flagsLast])
  have hk : keepsKind (.dict flagsBase) (.dict flagsMiddle) (.dict flagsLast) = true := by decide
  have hks : ∀ i (hi : i < [flagsMiddle, flagsLast].length),
      keepsKind (.dict flagsBase) (.dict (([flagsMiddle, flagsLast].take i).foldl deepMerge []))
        (.dict [flagsMiddle, flagsLast][i]) = true := by
    intro i hi
    match i with
    | 0 => decide +revert
    | 1 =>
      simp only [flagsMiddle, List.take, List.foldl, deepMerge, mergeEntries_cons, mergeOne_nil,
        mergeOne_cons, mergeEntries_nil]
      decide +revert
  exact ⟨⟨hb, hc, hk, deepMerge_regroups.1 _ _ _ hb hc hk⟩,
    ⟨hks, deepMerge_regroups.2 _ _ (by simpa using ⟨hb, hc⟩) hks⟩⟩

/-- A key holding a list in the main data, a number in one drop-in file and a list in the next:
merging the drop-ins first keeps the last list and extends the main list with it, while
merging the files one after another replaces the main list by the number and the number by
the last list. -/
theorem deepMerge_dropins_switch_kind :
    deepMerge [(.str "flags", .list [.str "a"])]
        ([[(.str "flags", .int 0)], [(.str "flags", .list [.str "b"])]].foldl deepMerge []) ≠
      [[(.str "flags", .int 0)], [(.str "flags", .list [.str "b"])]].foldl deepMerge
        [(.str "flags", .list [.str "a"])] := by
  have hgrouped : deepMerge [(.str "flags", .list [.str "a"])]
      ([[(.str "flags", .int 0)], [(.str "flags", .list [.str "b"])]].foldl deepMerge []) =
        [(.str "flags", .list [.str "a", .str "b"])] := by
    simp [deepMerge, mergeEntries_cons, mergeOne_cons, sameKey, keyForm?, mergeValue]
  have hfold : [[(.str "flags", .int 0)], [(.str "flags", .list [.str "b"])]].foldl deepMerge
      [(.str "flags", .list [.str "a"])] = [(.str "flags", .list [.str "b"])] := by
    simp [deepMerge, mergeEntries_cons, mergeOne_cons, sameKey, keyForm?, mergeValue]
  rw [hgrouped, hfold]
  simp

end Regroup

end FlagLine
