import FlagLine.Text.Basic
/-!
# Splitting at a separator that does not overlap itself

Splitting cuts a text at the leftmost occurrences of a separator that do not overlap. A text
without the separator is one piece (`splitOnAux_of_occursIn_eq_false`). Two texts joined by
the separator split into the pieces of the first, then those of the second, provided no
occurrence can start in the first text and end inside the separator after it
(`splitOnAux_append_sep`). That is so for every text exactly when the separator does not
overlap itself: no nonempty proper prefix of it is also a suffix (`Unbordered`), as with any
single character. `,,` overlaps itself: `x,` then `,,` then `y` splits at `x` and `,y`.

A separator occurs in a text when it is an infix of it (`occursIn_eq_true_iff`); one without
some character occurs in a text cut at that character only on one side of it. Cutting at
the last occurrence leaves a text after it without the separator (`splitLast?_spec`), and
stripping leaves a text as it is exactly when it neither starts nor ends with a blank
(`strip_eq_self_iff`).
-/

namespace FlagLine.Text

/-- A separator that does not overlap itself: no nonempty proper prefix of it is also a
suffix of it. -/
def Unbordered (sep : List Char) : Prop :=
  ∀ k < sep.length, 0 < k → sep.take k ≠ sep.drop (sep.length - k)

instance (sep : List Char) : Decidable (Unbordered sep) :=
  inferInstanceAs (Decidable (∀ k < sep.length, 0 < k → sep.take k ≠ sep.drop (sep.length - k)))

theorem unbordered_singleton (c : Char) : Unbordered [c] := by
  intro k hk hpos
  simp at hk
  omega

section Split

variable {sep : List Char} (hsep : sep ≠ [])

theorem splitOnAux_nil (acc : List Char) : splitOnAux sep hsep acc [] = [acc.reverse] := by
  rw [splitOnAux]

theorem splitOnAux_cons (acc : List Char) (c : Char) (r : List Char) :
    splitOnAux sep hsep acc (c :: r) =
      if sep.isPrefixOf (c :: r) then
        acc.reverse :: splitOnAux sep hsep [] ((c :: r).drop sep.length)
      else splitOnAux sep hsep (c :: acc) r := by
  rw [splitOnAux]

theorem splitOnAux_of_occursIn_eq_false {cs : List Char} (h : occursIn sep cs = false)
    (acc : List Char) : splitOnAux sep hsep acc cs = [acc.reverse ++ cs] := by
  induction cs generalizing acc with
  | nil => simp [splitOnAux_nil]
  | cons c r ih =>
    simp only [occursIn, Bool.or_eq_false_iff] at h
    rw [splitOnAux_cons, if_neg (by simp [h.1]), ih h.2]
    simp

/-- An occurrence of a separator that does not overlap itself cannot start in a text and end
inside the separator that follows it. -/
theorem IsPrefix.of_append_sep (hunb : Unbordered sep) {x b : List Char} (hx : x ≠ [])
    (h : sep <+: x ++ sep ++ b) : sep <+: x := by
  by_cases hlen : sep.length ≤ x.length
  · rw [List.append_assoc] at h
    exact List.prefix_of_prefix_length_le h (List.prefix_append x _) hlen
  · exfalso
    have hxpos : 0 < x.length := List.length_pos_iff.mpr hx
    obtain ⟨t, ht⟩ := h
    have htake := congrArg (List.take sep.length) ht
    rw [List.take_left' rfl, List.append_assoc, List.take_append,
      List.take_of_length_le (by omega), List.take_append_of_le_length (by omega)] at htake
    -- `sep` is `x` followed by its own first `sep.length - x.length` characters
    have hborder : sep.take (sep.length - x.length) = sep.drop x.length := by
      have := congrArg (List.drop x.length) htake
      rw [List.drop_left] at this
      exact this.symm
    apply hunb (sep.length - x.length) (by omega) (by omega)
    rw [hborder]
    congr 1
    omega

/-- Two texts joined by a separator that does not overlap itself split into the pieces of
the first, then those of the second. -/
theorem splitOnAux_append_sep (hunb : Unbordered sep) (b : List Char) :
    ∀ (a acc : List Char),
      splitOnAux sep hsep acc (a ++ sep ++ b) =
        splitOnAux sep hsep acc a ++ splitOnAux sep hsep [] b
  | [], acc => by
    obtain ⟨s, rest, hs⟩ := List.exists_cons_of_ne_nil hsep
    have hcons : sep ++ b = s :: (rest ++ b) := by rw [hs]; rfl
    have hpre : sep.isPrefixOf (s :: (rest ++ b)) = true := by
      rw [← hcons]
      exact List.isPrefixOf_iff_prefix.mpr (List.prefix_append sep b)
    rw [List.nil_append, hcons, splitOnAux_cons, if_pos hpre, ← hcons, List.drop_left,
      splitOnAux_nil]
    rfl
  | c :: r, acc => by
    rw [List.cons_append, List.cons_append, splitOnAux_cons, splitOnAux_cons]
    by_cases hin : sep.isPrefixOf (c :: r) = true
    · have hlen : sep.length ≤ (c :: r).length :=
        (List.isPrefixOf_iff_prefix.mp hin).length_le
      have hout : sep.isPrefixOf (c :: (r ++ sep ++ b)) = true := by
        rw [List.isPrefixOf_iff_prefix] at hin ⊢
        exact hin.trans (by simp [List.append_assoc])
      rw [if_pos hout, if_pos hin, ← List.cons_append, ← List.cons_append, List.append_assoc,
        List.drop_append_of_le_length hlen, ← List.append_assoc,
        splitOnAux_append_sep hunb b ((c :: r).drop sep.length) []]
      rfl
    · have hout : ¬ sep.isPrefixOf (c :: (r ++ sep ++ b)) = true := by
        intro hout
        rw [List.isPrefixOf_iff_prefix, ← List.cons_append, ← List.cons_append] at hout
        exact hin (List.isPrefixOf_iff_prefix.mpr (IsPrefix.of_append_sep hunb (by simp) hout))
      rw [if_neg hout, if_neg hin, splitOnAux_append_sep hunb b r (c :: acc)]
termination_by a => a.length
decreasing_by
  · exact length_drop_lt_of_ne_nil hsep c r
  · simp

end Split

/-- Two texts joined by a separator that does not overlap itself split into the pieces of
the first, then those of the second. -/
theorem splitOn?_append_sep {sep a b : List Char} (hunb : Unbordered sep) {pa pb : List (List Char)}
    (ha : splitOn? sep a = some pa) (hb : splitOn? sep b = some pb) :
    splitOn? sep (a ++ sep ++ b) = some (pa ++ pb) := by
  unfold splitOn? at ha hb ⊢
  split at ha
  · cases ha
  · rename_i hsep
    rw [dif_neg hsep] at hb
    rw [dif_neg hsep, splitOnAux_append_sep hsep hunb, Option.some.inj ha, Option.some.inj hb]

theorem splitOn?_of_occursIn_eq_false {sep cs : List Char} (hsep : sep ≠ [])
    (h : occursIn sep cs = false) : splitOn? sep cs = some [cs] := by
  unfold splitOn?
  rw [dif_neg hsep, splitOnAux_of_occursIn_eq_false hsep h]
  rfl

/-! ## Splitting at a character -/

theorem occursIn_singleton_eq_false {c : Char} :
    ∀ {cs : List Char}, c ∉ cs → occursIn [c] cs = false
  | [] => fun _ => rfl
  | d :: r => fun h => by
    have hd : c ≠ d := fun hcd => h (hcd ▸ List.mem_cons_self)
    have hr := occursIn_singleton_eq_false (fun hr => h (List.mem_cons_of_mem d hr))
    simp [occursIn, List.isPrefixOf, hd, hr]

theorem splitOnAux_head {sep : List Char} (hsep : sep ≠ []) (cs : List Char) :
    ∀ acc : List Char, ∃ x ys, splitOnAux sep hsep acc cs = (acc.reverse ++ x) :: ys := by
  induction cs with
  | nil => intro acc; exact ⟨[], [], by simp [splitOnAux_nil]⟩
  | cons c r ih =>
    intro acc
    rw [splitOnAux_cons]
    split
    · exact ⟨[], splitOnAux sep hsep [] ((c :: r).drop sep.length), by simp⟩
    · obtain ⟨x, ys, h⟩ := ih (c :: acc)
      exact ⟨c :: x, ys, by simp [h]⟩

/-- A text cut at the character splits into the pieces before it, then those after it. -/
theorem splitOnChar_append_cons (c : Char) (a b : List Char) :
    splitOnChar c (a ++ c :: b) = splitOnChar c a ++ splitOnChar c b := by
  have h := splitOnAux_append_sep (List.cons_ne_nil c []) (unbordered_singleton c) b a []
  simpa [splitOnChar] using h

theorem splitOnChar_of_not_mem {c : Char} {cs : List Char} (h : c ∉ cs) :
    splitOnChar c cs = [cs] := by
  simp [splitOnChar, splitOnAux_of_occursIn_eq_false _ (occursIn_singleton_eq_false h)]

/-- A text that starts with another character starts its first piece with it. -/
theorem splitOnChar_cons_of_ne {c d : Char} (hd : d ≠ c) (r : List Char) :
    ∃ x ys, splitOnChar c (d :: r) = (d :: x) :: ys := by
  unfold splitOnChar
  rw [splitOnAux_cons, if_neg (by simp [List.isPrefixOf, Ne.symm hd])]
  obtain ⟨x, ys, h⟩ := splitOnAux_head (List.cons_ne_nil c []) r [d]
  exact ⟨x, ys, by simpa using h⟩

/-! ## Occurrences -/

/-- A separator occurs in a text exactly when it is an infix of it. -/
theorem occursIn_eq_true_iff {p : List Char} :
    ∀ {cs : List Char}, occursIn p cs = true ↔ p <:+: cs
  | [] => by simp [occursIn]
  | c :: r => by
    rw [occursIn, Bool.or_eq_true, List.isPrefixOf_iff_prefix, occursIn_eq_true_iff,
      List.infix_cons_iff]

theorem occursIn_reverse {p cs : List Char} : occursIn p.reverse cs.reverse = occursIn p cs := by
  rw [Bool.eq_iff_iff, occursIn_eq_true_iff, occursIn_eq_true_iff, List.reverse_infix]

theorem IsPrefix.occursIn {p a b : List Char} (h : a <+: b) (ha : occursIn p a = true) :
    occursIn p b = true := by
  rw [occursIn_eq_true_iff] at ha ⊢
  exact ha.trans h.isInfix

/-- A separator without a character is a prefix of a text cut at that character only when
it is a prefix of what comes before it. -/
theorem isPrefixOf_append_cons {p : List Char} {c : Char} (hc : c ∉ p) (a r : List Char) :
    p.isPrefixOf (a ++ c :: r) = p.isPrefixOf a := by
  rw [Bool.eq_iff_iff, List.isPrefixOf_iff_prefix, List.isPrefixOf_iff_prefix]
  constructor
  · intro h
    by_cases hlen : p.length ≤ a.length
    · exact List.prefix_of_prefix_length_le h (List.prefix_append a _) hlen
    · exfalso
      obtain ⟨t, ht⟩ := h
      have hget : (p ++ t)[a.length]? = (a ++ c :: r)[a.length]? := by rw [ht]
      rw [List.getElem?_append_left (by omega), List.getElem?_append_right (by omega),
        Nat.sub_self, List.getElem?_cons_zero] at hget
      exact hc (List.mem_of_getElem? hget)
  · intro h
    exact h.trans (List.prefix_append a _)

/-- A separator without a character occurs in a text cut at that character only on one
side of it. -/
theorem occursIn_append_cons {p : List Char} (hp : p ≠ []) {c : Char} (hc : c ∉ p)
    (r : List Char) : ∀ a : List Char, occursIn p (a ++ c :: r) = (occursIn p a || occursIn p r)
  | [] => by
    obtain ⟨d, q, rfl⟩ := List.exists_cons_of_ne_nil hp
    have hd : d ≠ c := fun h => hc (h ▸ List.mem_cons_self)
    simp [occursIn, List.isPrefixOf, hd]
  | x :: a => by
    rw [List.cons_append, occursIn, occursIn_append_cons hp hc r a, ← List.cons_append,
      isPrefixOf_append_cons hc, occursIn, Bool.or_assoc]

/-! ## Cutting at the first and at the last occurrence -/

section Cut

variable {sep : List Char} (hsep : sep ≠ [])
include hsep

/-- Cutting at the first occurrence leaves a text before it in which the separator does not
occur; a text without it is not cut. -/
theorem splitFirst?_spec : ∀ cs : List Char,
    match splitFirst? sep cs with
    | some (a, b) => cs = a ++ sep ++ b ∧ occursIn sep a = false
    | none => occursIn sep cs = false
  | [] => by simp [splitFirst?, occursIn, hsep]
  | c :: r => by
    rw [splitFirst?]
    by_cases hpre : sep.isPrefixOf (c :: r) = true
    · rw [if_pos hpre]
      refine ⟨?_, by simp [occursIn, hsep]⟩
      obtain ⟨t, ht⟩ := List.isPrefixOf_iff_prefix.mp hpre
      rw [← ht, List.drop_left]
      simp
    · rw [if_neg hpre]
      have ih := splitFirst?_spec r
      revert ih
      cases splitFirst? sep r with
      | none =>
        intro ih
        simp [occursIn, ih, hpre]
      | some p =>
        obtain ⟨a, b⟩ := p
        rintro ⟨rfl, ha⟩
        refine ⟨rfl, ?_⟩
        simp only [occursIn, ha, Bool.or_false]
        cases h : sep.isPrefixOf (c :: a)
        · rfl
        · exact absurd (List.isPrefixOf_iff_prefix.mpr
            ((List.isPrefixOf_iff_prefix.mp h).trans (by simp))) hpre

/-- Cutting at the last occurrence leaves a text after it in which the separator does not
occur; a text without it is not cut. -/
theorem splitLast?_spec (cs : List Char) :
    match splitLast? sep cs with
    | some (a, b) => cs = a ++ sep ++ b ∧ occursIn sep b = false
    | none => occursIn sep cs = false := by
  have h := splitFirst?_spec (List.reverse_ne_nil_iff.mpr hsep) cs.reverse
  unfold splitLast?
  revert h
  cases splitFirst? sep.reverse cs.reverse with
  | none =>
    intro h
    rwa [occursIn_reverse] at h
  | some p =>
    obtain ⟨a, b⟩ := p
    rintro ⟨hcs, ha⟩
    refine ⟨?_, ?_⟩
    · have := congrArg List.reverse hcs
      simpa using this
    · rw [← occursIn_reverse, List.reverse_reverse, ha]

end Cut

/-! ## Blanks at the ends -/

section Blanks

variable {p : Char → Bool}

theorem dropLeading_suffix (p : Char → Bool) : ∀ cs : List Char, dropLeading p cs <:+ cs
  | [] => List.suffix_refl []
  | c :: r => by
    rw [dropLeading]
    split
    · exact (dropLeading_suffix p r).trans (List.suffix_cons c r)
    · exact List.suffix_refl _

/-- Dropping leading characters of a class changes nothing exactly when the text does not
start with one. -/
theorem dropLeading_eq_self_iff {cs : List Char} :
    dropLeading p cs = cs ↔ ∀ c ∈ cs.head?, p c = false := by
  cases cs with
  | nil => simp [dropLeading]
  | cons c r =>
    cases hc : p c with
    | false => simp [dropLeading, hc]
    | true =>
      have hne : dropLeading p r ≠ c :: r := by
        intro h
        have := (dropLeading_suffix p r).length_le
        rw [h, List.length_cons] at this
        omega
      simp [dropLeading, hc, hne]

/-- Stripping changes nothing exactly when the text neither starts nor ends with a blank. -/
theorem strip_eq_self_iff {cs : List Char} :
    strip cs = cs ↔
      (∀ c ∈ cs.head?, isBlank c = false) ∧ ∀ c ∈ cs.getLast?, isBlank c = false := by
  rw [List.getLast?_eq_head?_reverse, ← dropLeading_eq_self_iff, ← dropLeading_eq_self_iff]
  unfold strip
  constructor
  · intro h
    have hfront := dropLeading_suffix isBlank cs
    have hback := dropLeading_suffix isBlank (dropLeading isBlank cs).reverse
    have hlen := congrArg List.length h
    simp only [List.length_reverse] at hlen
    have hle1 := hback.length_le
    have hle2 := hfront.length_le
    simp only [List.length_reverse] at hle1
    have hd : dropLeading isBlank cs = cs := hfront.eq_of_length (by omega)
    refine ⟨hd, ?_⟩
    rw [hd] at h
    rw [← List.reverse_inj, List.reverse_reverse, h]
  · rintro ⟨hd, hr⟩
    rw [hd, hr, List.reverse_reverse]

end Blanks

end FlagLine.Text
