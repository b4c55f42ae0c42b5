import Mathlib.Logic.Function.Iterate
import FlagLine.Validator.Answer
/-!
# Cycling through the options of a single choice

Cycling steps to the completion after the value, wrapping around, and a single choice
completes a value to the options that start with it, case aside. So the list cycled through
changes with the value. Main statement: `choice_cycle_among_extensions`. From an option `o`
of a list without repeats, cycling forward gives the first option after `o`, wrapping
around, that starts with `o` case aside, and cycling back the nearest such option before
it. The next option of the list is reached exactly when it starts with `o`, case aside, and
the same holds of the option before. Cycling again and again from `o` never leaves the
options that start with `o`: among the debug levels `""`, `1`, `2`, `3` cycling from `1`
stays at `1` (`debug_level_cycle_stays`).
-/

namespace FlagLine.Validator

/-- Whether a text starts with another, case aside: the test of a single choice's
completions. -/
def startsCaseless (o value : String) : Bool :=
  (Text.lowerString o).startsWith (Text.lowerString value)

theorem startsCaseless_refl (o : String) : startsCaseless o o = true := by
  simp [startsCaseless]

theorem startsCaseless_trans {a b c : String} (hab : startsCaseless a b = true)
    (hbc : startsCaseless b c = true) : startsCaseless a c = true := by
  simp only [startsCaseless, String.startsWith_string_iff] at hab hbc ⊢
  exact hbc.trans hab

/-- Every option starts with the empty value, so the completions of a single choice are
the options that start with the value, case aside. -/
theorem choiceCompletions_eq_filter (options : List String) (value : String) :
    choiceCompletions options value = options.filter (startsCaseless · value) := by
  unfold choiceCompletions
  split
  · rename_i hempty
    have hlower : Text.lowerString "" = "" := by simp [Text.lowerString]
    rw [String.isEmpty_iff.mp hempty, eq_comm, List.filter_eq_self]
    intro o _
    rw [startsCaseless, hlower]
    exact String.startsWith_string_empty
  · rfl

section Cycling

variable (options : List String) (host : Host) (ctx : Table Value) (value : String)

theorem cycleNext_choice :
    (Validator.choice options).cycleNext host ctx value =
      .ok (stepAfter (choiceCompletions options value) value) := rfl

theorem cyclePrev_choice :
    (Validator.choice options).cyclePrev host ctx value =
      .ok (stepBefore (choiceCompletions options value) value) := rfl

end Cycling

/-! ## Stepping around a list -/

section Stepping

variable {A B : List String} {o : String}

/-- An entry that does not occur before a place is found at that place. -/
theorem idxOf?_append_cons (h : o ∉ A) : (A ++ o :: B).idxOf? o = some A.length := by
  rw [List.idxOf?_eq_some_iff]
  refine ⟨by simp, by simp, fun j hj hget => h ?_⟩
  rw [List.getElem_append_left hj] at hget
  exact hget ▸ List.getElem_mem hj

/-- The completion after an entry is the next one, or the first when the entry is last:
the head of the entries after it, then those before it, then itself. -/
theorem stepAfter_append_cons (h : o ∉ A) :
    stepAfter (A ++ o :: B) o = ((B ++ A ++ [o]).head?).getD o := by
  simp only [stepAfter, idxOf?_append_cons h, List.getD_eq_getElem?_getD]
  cases B with
  | nil =>
    cases A <;> simp
  | cons b B =>
    have hlt : A.length + 1 < (A ++ o :: b :: B).length := by simp
    rw [Nat.mod_eq_of_lt hlt]
    simp

/-- The completion before an entry is the previous one, or the last when the entry is
first: the head of the entries before it nearest first, then those after it from the
end, then itself. -/
theorem stepBefore_append_cons (h : o ∉ A) :
    stepBefore (A ++ o :: B) o = ((A.reverse ++ B.reverse ++ [o]).head?).getD o := by
  simp only [stepBefore, idxOf?_append_cons h, List.getD_eq_getElem?_getD]
  rcases List.eq_nil_or_concat A with rfl | ⟨A, a, rfl⟩
  · have hidx : (0 + (o :: B).length - 1) % (o :: B).length = B.length := by
      simp only [List.length_cons]
      rw [Nat.mod_eq_of_lt (by omega)]
      omega
    simp only [List.nil_append, List.length_nil, hidx, List.reverse_nil]
    rcases List.eq_nil_or_concat B with rfl | ⟨B, b, rfl⟩
    · simp
    · simp
  · rw [List.concat_eq_append]
    have hidx : ((A ++ [a]).length + (A ++ [a] ++ o :: B).length - 1) %
        (A ++ [a] ++ o :: B).length = A.length := by
      simp only [List.length_append, List.length_cons, List.length_nil]
      rw [show A.length + 1 + (A.length + 1 + (B.length + 1)) - 1 =
        A.length + (A.length + 1 + (B.length + 1)) by omega, Nat.add_mod_right,
        Nat.mod_eq_of_lt (by omega)]
    rw [hidx]
    simp

/-- Whatever the completion after a value is, it is the value or one of the completions. -/
theorem stepAfter_mem (cs : List String) (v : String) :
    stepAfter cs v = v ∨ stepAfter cs v ∈ cs := by
  unfold stepAfter
  split
  · rw [List.getD_eq_getElem?_getD]
    cases hget : cs[(_ : Nat)]? with
    | none => exact .inl rfl
    | some w => exact .inr (List.mem_of_getElem? hget)
  · cases cs with
    | nil => exact .inl rfl
    | cons c rest => exact .inr (by simp)

end Stepping

/-! ## The options that pass a test around one of them -/

/-- The options of a list without repeats that pass a test, split at one of them that
passes: those before it, it, and those after it. -/
theorem filter_split_at {options : List String} (hnodup : options.Nodup) {i : Nat}
    (hi : i < options.length) {p : String → Bool} (hp : p options[i] = true) :
    options.filter p =
        (options.take i).filter p ++ options[i] :: (options.drop (i + 1)).filter p ∧
      options[i] ∉ (options.take i).filter p := by
  have hsplit : options = options.take i ++ options[i] :: options.drop (i + 1) := by
    rw [← List.drop_eq_getElem_cons hi, List.take_append_drop]
  constructor
  · calc options.filter p
        = (options.take i ++ options[i] :: options.drop (i + 1)).filter p := by rw [← hsplit]
      _ = _ := by rw [List.filter_append, List.filter_cons_of_pos hp]
  · intro hmem
    have hnd := hsplit ▸ hnodup
    rw [List.nodup_append] at hnd
    exact hnd.2.2 _ (List.mem_filter.mp hmem).1 _ (List.mem_cons_self ..) rfl

/-! ## The neighbours of an option -/

section Neighbours

variable {l : List String} {i : Nat}

/-- The options after the one at `i`, then those up to it, start with the next option,
wrapping around. -/
theorem head?_drop_append_take (hi : i < l.length) :
    (l.drop (i + 1) ++ l.take (i + 1)).head? = l[(i + 1) % l.length]? := by
  by_cases hnext : i + 1 < l.length
  · rw [Nat.mod_eq_of_lt hnext, List.head?_append, List.head?_drop,
      List.getElem?_eq_getElem hnext]
    rfl
  · have hlen : i + 1 = l.length := by omega
    rw [List.drop_eq_nil_of_le (by omega), List.take_of_length_le (by omega), hlen,
      Nat.mod_self, List.nil_append, List.head?_eq_getElem?]

/-- The options before the one at `i`, nearest first, then the rest from the end, start
with the option before it, wrapping around. -/
theorem head?_reverse_take_append (hi : i < l.length) :
    ((l.take i).reverse ++ (l.drop i).reverse).head? =
      l[(i + l.length - 1) % l.length]? := by
  cases i with
  | zero =>
    rw [List.take_zero, List.drop_zero, List.reverse_nil, List.nil_append, List.head?_reverse,
      List.getLast?_eq_getElem?, Nat.zero_add, Nat.mod_eq_of_lt (by omega)]
  | succ j =>
    have hj : (j + 1 + l.length - 1) % l.length = j := by
      rw [show j + 1 + l.length - 1 = j + l.length by omega, Nat.add_mod_right,
        Nat.mod_eq_of_lt (by omega)]
    rw [hj, List.head?_append, List.head?_reverse, List.getLast?_take]
    simp [List.getElem?_eq_getElem (show j < l.length by omega)]

/-- A search whose default passes the test gives the head of the list exactly when the
head passes it. -/
theorem find?_getD_eq_head_iff {L : List String} {p : String → Bool} {d w : String}
    (hd : p d = true) (hw : L.head? = some w) : (L.find? p).getD d = w ↔ p w = true := by
  constructor
  · intro h
    cases hfind : L.find? p with
    | none => rw [hfind] at h; exact h ▸ hd
    | some r => rw [hfind] at h; exact h ▸ List.find?_some hfind
  · intro hpw
    obtain ⟨L', rfl⟩ : ∃ L', L = w :: L' := by
      cases L with
      | nil => cases hw
      | cons a L' => cases hw; exact ⟨L', rfl⟩
    rw [List.find?_cons_of_pos hpw]
    rfl

end Neighbours

/-! ## Cycling -/

section Cycle

variable {options : List String} (host : Host) (ctx : Table Value)

/-- From an option, cycling forward gives the first option after it, wrapping around, that
starts with it, case aside. -/
theorem cycleNext_choice_option (hnodup : options.Nodup) {i : Nat} (hi : i < options.length) :
    (Validator.choice options).cycleNext host ctx options[i] =
      .ok (((options.drop (i + 1) ++ options.take (i + 1)).find?
        (startsCaseless · options[i])).getD options[i]) := by
  obtain ⟨hfilter, hnot⟩ := filter_split_at (p := (startsCaseless · options[i])) hnodup hi
    (startsCaseless_refl options[i])
  have htake : (options.take (i + 1)).filter (startsCaseless · options[i]) =
      (options.take i).filter (startsCaseless · options[i]) ++ [options[i]] := by
    rw [List.take_add_one, List.getElem?_eq_getElem hi, Option.toList_some, List.filter_append,
      List.filter_cons_of_pos (p := (startsCaseless · options[i])) (startsCaseless_refl options[i]),
      List.filter_nil]
  rw [cycleNext_choice, choiceCompletions_eq_filter, hfilter, stepAfter_append_cons hnot,
    ← List.head?_filter, List.filter_append, htake, List.append_assoc]

/-- From an option, cycling back gives the nearest option before it, wrapping around, that
starts with it, case aside. -/
theorem cyclePrev_choice_option (hnodup : options.Nodup) {i : Nat} (hi : i < options.length) :
    (Validator.choice options).cyclePrev host ctx options[i] =
      .ok ((((options.take i).reverse ++ (options.drop i).reverse).find?
        (startsCaseless · options[i])).getD options[i]) := by
  obtain ⟨hfilter, hnot⟩ := filter_split_at (p := (startsCaseless · options[i])) hnodup hi
    (startsCaseless_refl options[i])
  rw [cyclePrev_choice, choiceCompletions_eq_filter, hfilter, stepBefore_append_cons hnot,
    ← List.head?_filter, List.filter_append, List.filter_reverse, List.filter_reverse,
    List.drop_eq_getElem_cons hi,
    List.filter_cons_of_pos (p := (startsCaseless · options[i])) (startsCaseless_refl options[i]),
    List.reverse_cons, List.append_assoc]

/-- One step of cycling from any value lands on the value itself or on an option that
starts with it, case aside. -/
theorem cycleNext_choice_starts (v : String) :
    ∃ w, (Validator.choice options).cycleNext host ctx v = .ok w ∧
      (w = v ∨ w ∈ options ∧ startsCaseless w v = true) := by
  rw [cycleNext_choice, choiceCompletions_eq_filter]
  refine ⟨_, rfl, ?_⟩
  rcases stepAfter_mem (options.filter (startsCaseless · v)) v with heq | hmem
  · exact .inl heq
  · exact .inr (List.mem_filter.mp hmem)

/-- Cycling again and again from an option that starts with `o`, case aside, stays among
such options. -/
theorem cycleNext_choice_iterate (o : String) :
    ∀ (k : Nat) (v : String), v ∈ options → startsCaseless v o = true →
      ∃ w, (· >>= (Validator.choice options).cycleNext host ctx)^[k] (.ok v) = .ok w ∧
        w ∈ options ∧ startsCaseless w o = true := by
  intro k
  induction k with
  | zero => exact fun v hv ho => ⟨v, rfl, hv, ho⟩
  | succ k ih =>
    intro v hv ho
    obtain ⟨w, hstep, hw⟩ := cycleNext_choice_starts host ctx v
    rw [Function.iterate_succ_apply]
    change ∃ w', (· >>= (Validator.choice options).cycleNext host ctx)^[k]
      ((Validator.choice options).cycleNext host ctx v) = .ok w' ∧ _
    rw [hstep]
    rcases hw with rfl | ⟨hw, hwv⟩
    · exact ih w hv ho
    · exact ih w hw (startsCaseless_trans hwv ho)

end Cycle

/-- Cycling a single choice whose options are all different, from the option `o` at `i`:
forward it gives the first option after `o`, wrapping around, that starts with `o` case
aside, and back the nearest such option before `o`. So it reaches the next option of the
list exactly when that option starts with `o` case aside, and the option before exactly
when that one does. Cycled again and again from `o`, the value stays among the options
that start with `o`, case aside. -/
theorem choice_cycle_among_extensions (options : List String) (hnodup : options.Nodup) (i : Nat)
    (hi : i < options.length) (host : Host) (ctx : Table Value) :
    (Validator.choice options).cycleNext host ctx options[i] =
        .ok (((options.drop (i + 1) ++ options.take (i + 1)).find?
          (startsCaseless · options[i])).getD options[i]) ∧
      (Validator.choice options).cyclePrev host ctx options[i] =
        .ok ((((options.take i).reverse ++ (options.drop i).reverse).find?
          (startsCaseless · options[i])).getD options[i]) ∧
      (∀ w, options[(i + 1) % options.length]? = some w →
        ((Validator.choice options).cycleNext host ctx options[i] = .ok w ↔
          startsCaseless w options[i] = true)) ∧
      (∀ w, options[(i + options.length - 1) % options.length]? = some w →
        ((Validator.choice options).cyclePrev host ctx options[i] = .ok w ↔
          startsCaseless w options[i] = true)) ∧
      (∀ k, ∃ w, (· >>= (Validator.choice options).cycleNext host ctx)^[k] (.ok options[i]) =
        .ok w ∧ w ∈ options ∧ startsCaseless w options[i] = true) := by
  have hnext := cycleNext_choice_option host ctx hnodup hi
  have hprev := cyclePrev_choice_option host ctx hnodup hi
  refine ⟨hnext, hprev, fun w hw => ?_, fun w hw => ?_, fun k => ?_⟩
  · rw [hnext, Except.ok.injEq]
    exact find?_getD_eq_head_iff (startsCaseless_refl _) ((head?_drop_append_take hi).trans hw)
  · rw [hprev, Except.ok.injEq]
    exact find?_getD_eq_head_iff (startsCaseless_refl _)
      ((head?_reverse_take_append hi).trans hw)
  · exact cycleNext_choice_iterate host ctx options[i] k options[i] (List.getElem_mem hi)
      (startsCaseless_refl _)



/-- Among the debug levels `""`, `1`, `2` and `3`, cycling forward from `1` does not reach
`2`: no other level starts with `1`. -/
theorem debug_level_cycle_stays :
    ["", "1", "2", "3"].Nodup ∧ 1 < ["", "1", "2", "3"].length ∧
      (Validator.choice ["", "1", "2", "3"]).cycleNext
        { files := {}, cwd := [], env := [], behaviour := fun _ _ ↦ .error .execFormat } []
        "1" ≠ .ok "2" := by
  refine ⟨by decide, by decide, fun h => ?_⟩
  have hstarts := ((choice_cycle_among_extensions ["", "1", "2", "3"] (by decide) 1 (by decide)
    { files := {}, cwd := [], env := [], behaviour := fun _ _ ↦ .error .execFormat } []).2.2.1
    "2" rfl).mp h
  have hnot : startsCaseless "2" "1" = false := by decide +kernel
  change startsCaseless "2" "1" = true at hstarts
  rw [hnot] at hstarts
  cases hstarts

end FlagLine.Validator
