import FlagLine.Text.Case
/-!
# Small letters stay small

The small letter of a character has no small letter of its own: every capital of the case
tables maps to a character that no table lists as a capital. Taking text to small letters a
second time therefore changes nothing, the dotted capital I included, whose small form is an i
followed by a combining dot, and the capital sigma, whose final form is a small letter too and
which the second pass no longer meets. Every character is either no capital, and kept, or a
capital of one table (`lowerChar_cases`). The small letters of each range of capitals form a
range of characters, and the tables are checked once, by evaluation, to keep every such range
clear of capitals (`noCapitalIn`). Main statement: `lowerString_lowerString`.
-/

namespace FlagLine.Text

/-! ## Reading the tables -/

section Tables

variable {n m : Nat}

theorem lookupShift_eq_some {tbl : List (Nat × Nat × Nat)} (h : lookupShift n tbl = some m) :
    ∃ e ∈ tbl, e.1 ≤ n ∧ n ≤ e.2.1 ∧ m = n + e.2.2 := by
  induction tbl with
  | nil => simp [lookupShift] at h
  | cons e rest ih =>
    obtain ⟨lo, hi, d⟩ := e
    unfold lookupShift at h
    split at h
    · next hr => exact ⟨(lo, hi, d), List.mem_cons_self, hr.1, hr.2, (Option.some.inj h).symm⟩
    · obtain ⟨e, he, h⟩ := ih h
      exact ⟨e, List.mem_cons_of_mem _ he, h⟩

theorem lookupPair_eq_some {tbl : List (Nat × Nat)} (h : lookupPair n tbl = some m) :
    (n, m) ∈ tbl := by
  induction tbl with
  | nil => simp [lookupPair] at h
  | cons e rest ih =>
    obtain ⟨a, b⟩ := e
    unfold lookupPair at h
    split at h
    · next ha =>
      subst ha
      cases h
      exact List.mem_cons_self
    · exact List.mem_cons_of_mem _ (ih h)

theorem inRanges_eq_true {c : Char} {tbl : List (Nat × Nat)} (h : inRanges c tbl = true) :
    ∃ e ∈ tbl, e.1 ≤ c.toNat ∧ c.toNat ≤ e.2 := by
  induction tbl with
  | nil => simp [inRanges] at h
  | cons e rest ih =>
    obtain ⟨lo, hi⟩ := e
    simp only [inRanges, Bool.or_eq_true, Bool.and_eq_true, decide_eq_true_eq] at h
    rcases h with h | h
    · exact ⟨(lo, hi), List.mem_cons_self, h⟩
    · obtain ⟨e, he, h⟩ := ih h
      exact ⟨e, List.mem_cons_of_mem _ he, h⟩

end Tables

/-- What the one-to-one small letter of a character is: the character itself, or the small
letter of a capital of one of the tables. -/
theorem lowerChar_cases (c : Char) :
    lowerChar c = c ∨
      (∃ e ∈ shiftedCapitals, e.1 ≤ c.toNat ∧ c.toNat ≤ e.2.1 ∧
        lowerChar c = Char.ofNat (c.toNat + e.2.2)) ∨
      (∃ e ∈ singleCapitals, lowerChar c = Char.ofNat e.2) ∨
      (∃ e ∈ evenCapitalBlocks, e.1 ≤ c.toNat ∧ c.toNat ≤ e.2 ∧ c.toNat % 2 = 0 ∧
        lowerChar c = Char.ofNat (c.toNat + 1)) ∨
      (∃ e ∈ oddCapitalBlocks, e.1 ≤ c.toNat ∧ c.toNat ≤ e.2 ∧ c.toNat % 2 = 1 ∧
        lowerChar c = Char.ofNat (c.toNat + 1)) := by
  have hself : Char.ofNat c.toNat = c := Char.ofNat_toNat c
  rcases hs : lookupShift c.toNat shiftedCapitals with _ | m
  · rcases hp : lookupPair c.toNat singleCapitals with _ | m
    · cases he : inRanges c evenCapitalBlocks
      · cases ho : inRanges c oddCapitalBlocks
        · exact .inl (by
            simp only [lowerChar, hs, hp, he, ho, Bool.false_eq_true, if_false, hself])
        · obtain ⟨e, hmem, hlo, hhi⟩ := inRanges_eq_true ho
          by_cases hpar : c.toNat % 2 = 1
          · exact .inr (.inr (.inr (.inr ⟨e, hmem, hlo, hhi, hpar,
              by simp only [lowerChar, hs, hp, he, ho, hpar, Bool.false_eq_true, if_true,
                if_false]⟩)))
          · exact .inl (by simp only [lowerChar, hs, hp, he, ho, hpar, Bool.false_eq_true,
              if_true, if_false, hself])
      · obtain ⟨e, hmem, hlo, hhi⟩ := inRanges_eq_true he
        by_cases hpar : c.toNat % 2 = 0
        · exact .inr (.inr (.inr (.inl ⟨e, hmem, hlo, hhi, hpar,
            by simp only [lowerChar, hs, hp, he, hpar, if_true]⟩)))
        · exact .inl (by simp only [lowerChar, hs, hp, he, hpar, if_true, if_false, hself])
    · exact .inr (.inr (.inl ⟨(c.toNat, m), lookupPair_eq_some hp,
        by simp only [lowerChar, hs, hp]⟩))
  · obtain ⟨e, hmem, hlo, hhi, rfl⟩ := lookupShift_eq_some hs
    exact .inr (.inl ⟨e, hmem, hlo, hhi, by simp only [lowerChar, hs]⟩)

/-! ## The small letters of the tables -/

section Images

variable {a b m n : Nat}

theorem lookupShift_eq_none {tbl : List (Nat × Nat × Nat)}
    (h : ∀ e ∈ tbl, n < e.1 ∨ e.2.1 < n) : lookupShift n tbl = none := by
  induction tbl with
  | nil => rfl
  | cons e rest ih =>
    obtain ⟨lo, hi, d⟩ := e
    have he := h (lo, hi, d) List.mem_cons_self
    dsimp only at he
    unfold lookupShift
    rw [if_neg (by omega)]
    exact ih fun e he ↦ h e (List.mem_cons_of_mem _ he)

theorem lookupPair_eq_none {tbl : List (Nat × Nat)} (h : ∀ e ∈ tbl, e.1 ≠ n) :
    lookupPair n tbl = none := by
  induction tbl with
  | nil => rfl
  | cons e rest ih =>
    obtain ⟨x, y⟩ := e
    unfold lookupPair
    rw [if_neg (h (x, y) List.mem_cons_self)]
    exact ih fun e he ↦ h e (List.mem_cons_of_mem _ he)

theorem inRanges_eq_false {c : Char} {tbl : List (Nat × Nat)}
    (h : ∀ e ∈ tbl, c.toNat < e.1 ∨ e.2 < c.toNat) : inRanges c tbl = false := by
  induction tbl with
  | nil => rfl
  | cons e rest ih =>
    obtain ⟨lo, hi⟩ := e
    have he := h (lo, hi) List.mem_cons_self
    dsimp only at he
    simp only [inRanges, ih fun e he ↦ h e (List.mem_cons_of_mem _ he), Bool.or_false,
      Bool.and_eq_false_iff, decide_eq_false_iff_not]
    omega

/-- Whether the code points from `a` to `b` lie outside every range of a table. -/
def outsideRanges (a b : Nat) (tbl : List (Nat × Nat)) : Bool :=
  tbl.all fun e => b < e.1 || e.2 < a

theorem outsideRanges_at {tbl : List (Nat × Nat)} (h : outsideRanges a b tbl = true)
    (ha : a ≤ m) (hb : m ≤ b) : ∀ e ∈ tbl, m < e.1 ∨ e.2 < m := fun e he ↦ by
  have := List.all_eq_true.mp h e he
  simp only [Bool.or_eq_true, decide_eq_true_eq] at this
  omega

/-- Whether the code points from `a` to `b` are characters none of which is a capital: none
lies in an offset range or is a single capital, and the range lies outside the blocks of
capitals at even code points when `even` is set, and outside those at odd code points when
`odd` is set. The flags say which parities the range is asked about. -/
def noCapitalIn (a b : Nat) (even odd : Bool) : Bool :=
  (b < 0xD800 || (0xDFFF < a && b < 0x110000)) &&
    outsideRanges a b (shiftedCapitals.map fun e => (e.1, e.2.1)) &&
    singleCapitals.all (fun e => e.1 < a || b < e.1) &&
    (!even || outsideRanges a b evenCapitalBlocks) &&
    (!odd || outsideRanges a b oddCapitalBlocks)

theorem toNat_ofNat_of_valid (h : m.isValidChar) : (Char.ofNat m).toNat = m := by
  have hof : Char.ofNat m = Char.ofNatAux m h := dif_pos h
  rw [hof]
  rfl

/-- A code point of a range without capitals, of a parity the range is asked about, is its
own small letter. -/
theorem lowerChar_of_noCapitalIn {even odd : Bool} (h : noCapitalIn a b even odd = true)
    (ha : a ≤ m) (hb : m ≤ b) (heven : m % 2 = 0 → even = true)
    (hodd : m % 2 = 1 → odd = true) : lowerChar (Char.ofNat m) = Char.ofNat m := by
  simp only [noCapitalIn, Bool.and_eq_true, Bool.or_eq_true, decide_eq_true_eq,
    Bool.not_eq_true'] at h
  obtain ⟨⟨⟨⟨hvalid, hshift⟩, hsingle⟩, heb⟩, hob⟩ := h
  have hm : (Char.ofNat m).toNat = m := toNat_ofNat_of_valid (by unfold Nat.isValidChar; omega)
  have hs : lookupShift m shiftedCapitals = none := lookupShift_eq_none fun e he ↦
    outsideRanges_at hshift ha hb (e.1, e.2.1) (List.mem_map_of_mem he)
  have hp : lookupPair m singleCapitals = none := lookupPair_eq_none fun e he ↦ by
    have := List.all_eq_true.mp hsingle e he
    simp only [Bool.or_eq_true, decide_eq_true_eq] at this
    omega
  -- the blocks are asked about the parity of the code point only
  rcases Nat.mod_two_eq_zero_or_one m with hpar | hpar
  · have hin : inRanges (Char.ofNat m) evenCapitalBlocks = false := inRanges_eq_false (by
      rw [hm]
      exact outsideRanges_at (heb.resolve_left (by simp [heven hpar])) ha hb)
    simp [lowerChar, hm, hs, hp, hin, hpar]
  · have hin : inRanges (Char.ofNat m) oddCapitalBlocks = false := inRanges_eq_false (by
      rw [hm]
      exact outsideRanges_at (hob.resolve_left (by simp [hodd hpar])) ha hb)
    simp [lowerChar, hm, hs, hp, hin, hpar]

theorem shiftedCapitals_small :
    shiftedCapitals.all (fun e => noCapitalIn (e.1 + e.2.2) (e.2.1 + e.2.2) true true) = true := by
  decide +kernel

theorem singleCapitals_small :
    singleCapitals.all (fun e => lowerChar (Char.ofNat e.2) == Char.ofNat e.2) = true := by
  decide +kernel

/-- A block with capitals at even code points ends on a small letter, and its small letters,
at odd code points, are no capitals. -/
theorem evenCapitalBlocks_small : evenCapitalBlocks.all (fun e =>
    e.2 % 2 == 1 && noCapitalIn (e.1 + 1) e.2 false true) = true := by
  decide +kernel

theorem oddCapitalBlocks_small : oddCapitalBlocks.all (fun e =>
    e.2 % 2 == 0 && noCapitalIn (e.1 + 1) e.2 true false) = true := by
  decide +kernel

theorem lowerChar_shifted {e : Nat × Nat × Nat} (he : e ∈ shiftedCapitals) (hlo : e.1 ≤ n)
    (hhi : n ≤ e.2.1) : lowerChar (Char.ofNat (n + e.2.2)) = Char.ofNat (n + e.2.2) :=
  lowerChar_of_noCapitalIn (List.all_eq_true.mp shiftedCapitals_small e he) (by omega)
    (by omega) (fun _ ↦ rfl) (fun _ ↦ rfl)

theorem lowerChar_single {e : Nat × Nat} (he : e ∈ singleCapitals) :
    lowerChar (Char.ofNat e.2) = Char.ofNat e.2 := by
  simpa using List.all_eq_true.mp singleCapitals_small e he

theorem lowerChar_even {e : Nat × Nat} (he : e ∈ evenCapitalBlocks) (hlo : e.1 ≤ n)
    (hhi : n ≤ e.2) (hpar : n % 2 = 0) : lowerChar (Char.ofNat (n + 1)) = Char.ofNat (n + 1) := by
  have h := List.all_eq_true.mp evenCapitalBlocks_small e he
  rw [Bool.and_eq_true, beq_iff_eq] at h
  -- the block ends at an odd code point, so the small letter of an even capital lies inside
  exact lowerChar_of_noCapitalIn h.2 (by omega) (by omega) (fun h ↦ absurd h (by omega))
    (fun _ ↦ rfl)

theorem lowerChar_odd {e : Nat × Nat} (he : e ∈ oddCapitalBlocks) (hlo : e.1 ≤ n)
    (hhi : n ≤ e.2) (hpar : n % 2 = 1) : lowerChar (Char.ofNat (n + 1)) = Char.ofNat (n + 1) := by
  have h := List.all_eq_true.mp oddCapitalBlocks_small e he
  rw [Bool.and_eq_true, beq_iff_eq] at h
  exact lowerChar_of_noCapitalIn h.2 (by omega) (by omega) (fun _ ↦ rfl)
    (fun h ↦ absurd h (by omega))

end Images

/-! ## Twice small -/

@[simp]
theorem lowerChar_lowerChar (c : Char) : lowerChar (lowerChar c) = lowerChar c := by
  rcases lowerChar_cases c with h | ⟨e, he, hlo, hhi, h⟩ | ⟨e, he, h⟩ |
      ⟨e, he, hlo, hhi, hpar, h⟩ | ⟨e, he, hlo, hhi, hpar, h⟩
  · rw [h, h]
  · rw [h, lowerChar_shifted he hlo hhi]
  · rw [h, lowerChar_single he]
  · rw [h, lowerChar_even he hlo hhi hpar]
  · rw [h, lowerChar_odd he hlo hhi hpar]

/-- No character has as its small letter one that is not its own small letter, such as the
dotted capital I or the capital sigma. -/
theorem lowerChar_toNat_ne {n : Nat} (hmoves : lowerChar (Char.ofNat n) ≠ Char.ofNat n)
    (c : Char) : (lowerChar c).toNat ≠ n := by
  intro h
  apply hmoves
  rw [← h, Char.ofNat_toNat, lowerChar_lowerChar]

theorem toNat_ne_sigma_of_mem_lowerFull {c d : Char} (hd : d ∈ lowerFull c) :
    d.toNat ≠ 0x3A3 := by
  unfold lowerFull at hd
  split at hd
  · simp only [List.mem_cons, List.not_mem_nil, or_false] at hd
    rcases hd with rfl | rfl <;> decide
  · rw [List.mem_singleton] at hd
    rw [hd]
    exact lowerChar_toNat_ne (by decide) c

theorem flatMap_lowerFull_lowerFull (c : Char) : (lowerFull c).flatMap lowerFull = lowerFull c := by
  unfold lowerFull
  split
  · decide
  · simp [@lowerChar_toNat_ne 0x130 (by decide) c]

/-! ## The final sigma -/

/-- Text without a capital sigma takes each character's full small form, whatever stands
before it. -/
theorem lowerAfter_of_sigma_not_mem {before cs : List Char} (h : ∀ c ∈ cs, c.toNat ≠ 0x3A3) :
    lowerAfter before cs = cs.flatMap lowerFull := by
  induction cs generalizing before with
  | nil => rfl
  | cons c cs ih =>
    rw [List.forall_mem_cons] at h
    simp [lowerAfter, h.1, ih h.2]

theorem toNat_ne_sigma_of_mem_lowerAfter {before cs : List Char} {d : Char}
    (hd : d ∈ lowerAfter before cs) : d.toNat ≠ 0x3A3 := by
  induction cs generalizing before with
  | nil => simp [lowerAfter] at hd
  | cons c cs ih =>
    simp only [lowerAfter, List.mem_append] at hd
    rcases hd with hd | hd
    · split at hd
      · split at hd
        · rw [List.mem_singleton] at hd
          rw [hd]
          decide
        · exact toNat_ne_sigma_of_mem_lowerFull hd
      · exact toNat_ne_sigma_of_mem_lowerFull hd
    · exact ih hd

theorem flatMap_lowerFull_lowerAfter (before cs : List Char) :
    (lowerAfter before cs).flatMap lowerFull = lowerAfter before cs := by
  induction cs generalizing before with
  | nil => rfl
  | cons c cs ih =>
    simp only [lowerAfter, List.flatMap_append, ih]
    congr 1
    split
    · split
      · decide
      · exact flatMap_lowerFull_lowerFull c
    · exact flatMap_lowerFull_lowerFull c

/-- Small letters stay small: the second pass meets no capital sigma, so it takes each
character's full small form, and those are their own. -/
theorem lower_lower (cs : List Char) : lower (lower cs) = lower cs := by
  have hfree : ∀ d ∈ lower cs, d.toNat ≠ 0x3A3 := fun _ hd ↦ toNat_ne_sigma_of_mem_lowerAfter hd
  calc lower (lower cs) = (lower cs).flatMap lowerFull := lowerAfter_of_sigma_not_mem hfree
    _ = lower cs := flatMap_lowerFull_lowerAfter [] cs

@[simp]
theorem lowerString_lowerString (s : String) : lowerString (lowerString s) = lowerString s := by
  simp [lowerString, lower_lower]

end FlagLine.Text
