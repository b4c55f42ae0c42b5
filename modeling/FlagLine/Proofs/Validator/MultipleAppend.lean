import FlagLine.Validator.Answer
import FlagLine.Proofs.Text.Split
/-!
# Appending to a multiple choice

A multiple choice completes a value to the options that may still be appended, and cycling
appends the first of them. Main statement: `multipleChoice_completions_valid_appends`. When
the delimiter is not empty and does not overlap itself, and the options without their marks
are not empty, hold no delimiter and have no blanks at their ends, then for every valid
value that is not one option marked to stand alone, the completions are exactly the
options not yet chosen whose appending gives a valid value; so cycling keeps the value
valid. Both conditions are needed. A delimiter that overlaps itself cuts the appended value
elsewhere: with the delimiter `,,` and the options `x,` and `y`, the value `x,` is offered
`y`, and `x,,,y` splits at `x` and `,y` (`multipleChoice_overlapping_delimiter`). And the
completions do not look at a chosen option that must stand alone: with the options `$a$`
and `b`, the value `a` is offered `b`, and `a,b` is refused.
-/

namespace FlagLine.Validator

def accepts (v : Validator) (host : Host) (ctx : Table Value) (value : String) : Bool :=
  match v.check host ctx value with
  | .ok r => r.valid
  | .error _ => false

/-- A value with an option appended after the delimiter: the option alone for the empty
value. -/
def appendOption (delimiter value o : String) : String :=
  if value.isEmpty then o else value ++ delimiter ++ o

/-- The options chosen in a value: none in the empty value, else its parts. -/
def selectedParts (delimiter value : String) : Except ValidatorError (List String) :=
  if value.isEmpty then pure [] else chosenParts delimiter value

/-! ## The parts of a value -/

section Parts

variable {delimiter : String}

/-- A value cut at a delimiter that is not empty gives its parts. -/
theorem chosenParts_ok (hdelim : delimiter ≠ "") (value : String) :
    ∃ pieces, Text.splitOn? delimiter.toList value.toList = some pieces ∧
      chosenParts delimiter value =
        .ok (pieces.map (fun p => Text.stripString (String.ofList p))) := by
  have hsep : delimiter.toList ≠ [] := by simpa using hdelim
  refine ⟨_, dif_neg hsep, ?_⟩
  simp only [chosenParts, Text.splitOn?, dif_neg hsep]

theorem splitOnAux_ne_nil {sep : List Char} (hsep : sep ≠ []) :
    ∀ (acc cs : List Char), Text.splitOnAux sep hsep acc cs ≠ []
  | acc, [] => by simp [Text.splitOnAux_nil]
  | acc, c :: r => by
    rw [Text.splitOnAux_cons]
    split
    · simp
    · exact splitOnAux_ne_nil hsep (c :: acc) r
termination_by _ cs => cs.length

theorem chosenParts_ne_nil (hdelim : delimiter ≠ "") {value : String} {parts : List String}
    (h : chosenParts delimiter value = .ok parts) : parts ≠ [] := by
  have hsep : delimiter.toList ≠ [] := by simpa using hdelim
  simp only [chosenParts, Text.splitOn?, dif_neg hsep] at h
  cases h
  simpa using splitOnAux_ne_nil hsep [] value.toList

/-- An option without the delimiter and without blanks at its ends is one part. -/
theorem chosenParts_option (hdelim : delimiter ≠ "") {o : String}
    (hocc : Text.occursIn delimiter.toList o.toList = false) (hstrip : Text.stripString o = o) :
    chosenParts delimiter o = .ok [o] := by
  have hsep : delimiter.toList ≠ [] := by simpa using hdelim
  simp only [chosenParts, Text.splitOn?_of_occursIn_eq_false hsep hocc, List.map_cons,
    List.map_nil, String.ofList_toList, hstrip]

/-- Appending an option without the delimiter and without blanks at its ends, after a
delimiter that does not overlap itself, appends it to the parts. -/
theorem chosenParts_append (hdelim : delimiter ≠ "") (hunb : Text.Unbordered delimiter.toList)
    {value o : String} {parts : List String} (hparts : chosenParts delimiter value = .ok parts)
    (hocc : Text.occursIn delimiter.toList o.toList = false) (hstrip : Text.stripString o = o) :
    chosenParts delimiter (value ++ delimiter ++ o) = .ok (parts ++ [o]) := by
  have hsep : delimiter.toList ≠ [] := by simpa using hdelim
  obtain ⟨pieces, hpieces, hv⟩ := chosenParts_ok hdelim value
  rw [hv] at hparts
  cases hparts
  have hsplit :=
    Text.splitOn?_append_sep hunb hpieces (Text.splitOn?_of_occursIn_eq_false hsep hocc)
  simp only [chosenParts, String.toList_append, hsplit, List.map_append, List.map_cons,
    List.map_nil, String.ofList_toList, hstrip]

end Parts

/-! ## Where the options stand -/

/-- The parts of a value respect every placement mark: an option that must stand alone is
alone, one that must come first is first, and one that must come last is last. -/
def PlacedWell (options parts : List String) : Prop :=
  ∀ i (hi : i < parts.length),
    (mustBeOnly options parts[i] = true → parts.length ≤ 1) ∧
    (mustBeFirst options parts[i] = true → i = 0) ∧
    (mustBeLast options parts[i] = true → i + 1 = parts.length)

theorem placementFault_eq_none_iff (options parts : List String) :
    placementFault options parts = none ↔ PlacedWell options parts := by
  simp only [placementFault, List.head?_eq_none_iff, List.filterMap_eq_nil_iff]
  constructor
  · intro h i hi
    have hfault := h (parts[i], i) (List.mem_zipIdx_iff_getElem?.mpr (by simp))
    split at hfault
    · cases hfault
    rename_i h1
    split at hfault
    · cases hfault
    rename_i h2
    split at hfault
    · cases hfault
    rename_i h3
    simp only [Bool.and_eq_true, decide_eq_true_eq, not_and] at h1 h2 h3
    exact ⟨fun ho => by have := h1 ho; omega, fun hf => by have := h2 hf; omega,
      fun hl => by have := h3 hl; omega⟩
  · intro h x hx
    obtain ⟨p, i⟩ := x
    obtain ⟨hi, hp⟩ := List.getElem?_eq_some_iff.mp (List.mem_zipIdx_iff_getElem?.mp hx)
    dsimp only at hi hp ⊢
    subst hp
    obtain ⟨ho, hf, hl⟩ := h i hi
    have h1 : (mustBeOnly options parts[i] && decide (parts.length > 1)) = false := by
      cases hmo : mustBeOnly options parts[i]
      · rfl
      · have := ho hmo; simp; omega
    have h2 : (mustBeFirst options parts[i] && decide (i > 0)) = false := by
      cases hmf : mustBeFirst options parts[i]
      · rfl
      · have := hf hmf; simp; omega
    have h3 : (mustBeLast options parts[i] && decide (i + 1 < parts.length)) = false := by
      cases hml : mustBeLast options parts[i]
      · rfl
      · have := hl hml; simp; omega
    simp only [h1, h2, h3, Bool.false_eq_true, ite_false]

theorem placedWell_singleton (options : List String) (o : String) : PlacedWell options [o] := by
  intro i hi
  simp only [List.length_singleton] at hi ⊢
  omega

/-- After parts that respect every mark, none of which must stand alone, an appended
option respects the marks exactly when the last part need not come last and the option
need neither stand alone nor come first. -/
theorem placedWell_append {options parts : List String} (hplaced : PlacedWell options parts)
    (halone : ∀ p ∈ parts, mustBeOnly options p = false) (hne : parts ≠ []) (o : String) :
    PlacedWell options (parts ++ [o]) ↔
      mustBeLast options (parts.getLast hne) = false ∧ mustBeOnly options o = false ∧
        mustBeFirst options o = false := by
  have hlen : 0 < parts.length := List.length_pos_iff.mpr hne
  constructor
  · intro h
    obtain ⟨ho, hf, -⟩ := h parts.length (by simp)
    obtain ⟨-, -, hl⟩ := h (parts.length - 1)
      (by rw [List.length_append, List.length_singleton]; omega)
    simp only [List.getElem_append_right (Nat.le_refl _), Nat.sub_self,
      List.getElem_cons_zero, List.length_append, List.length_singleton] at ho hf
    rw [List.getElem_append_left (by omega), ← List.getLast_eq_getElem hne] at hl
    refine ⟨?_, ?_, ?_⟩
    · cases hml : mustBeLast options (parts.getLast hne)
      · rfl
      · have := hl hml; simp at this; omega
    · cases hmo : mustBeOnly options o
      · rfl
      · have := ho hmo; omega
    · cases hmf : mustBeFirst options o
      · rfl
      · have := hf hmf; omega
  · rintro ⟨hlast, ho, hf⟩ i hi
    simp only [List.length_append, List.length_singleton] at hi
    by_cases hin : i < parts.length
    · rw [List.getElem_append_left hin]
      obtain ⟨-, hfirst, hl⟩ := hplaced i hin
      refine ⟨fun hmo => ?_, hfirst, fun hml => ?_⟩
      · rw [halone _ (List.getElem_mem hin)] at hmo
        cases hmo
      · have hi' := hl hml
        have : parts[i] = parts.getLast hne := by
          rw [List.getLast_eq_getElem hne]
          congr 1
          omega
        rw [this, hlast] at hml
        cases hml
    · have hi' : i = parts.length := by omega
      subst hi'
      rw [List.getElem_append_right (Nat.le_refl _)]
      simp only [Nat.sub_self, List.getElem_cons_zero]
      refine ⟨fun hmo => ?_, fun hmf => ?_, fun _ => by simp⟩
      · rw [ho] at hmo; cases hmo
      · rw [hf] at hmf; cases hmf

/-! ## Judging a value -/

section Judging

variable (options : List String) (delimiter : String) (minimum maximum : Int) (host : Host)
  (ctx : Table Value)

theorem multipleChoice_accepts_empty :
    (Validator.multipleChoice options delimiter minimum maximum).accepts host ctx "" =
      decide (minimum ≤ 0) := by
  by_cases hmin : minimum > 0
  · simp [accepts, check, multipleCheck, hmin, pure, Except.pure]
  · simp [accepts, check, multipleCheck, hmin, pure, Except.pure]
    omega

/-- A value with parts is valid when their count is within bounds, each is an option and
every mark is respected. -/
theorem multipleChoice_accepts_of_parts {value : String} {parts : List String}
    (hne : value.isEmpty = false) (hparts : chosenParts delimiter value = .ok parts) :
    (Validator.multipleChoice options delimiter minimum maximum).accepts host ctx value =
      (decide (minimum ≤ parts.length) && decide ((parts.length : Int) ≤ maximum) &&
        parts.all (cleanOptions options).contains && (placementFault options parts).isNone) := by
  simp only [accepts, check, multipleCheck, hne, hparts, Bool.false_eq_true, ite_false, bind,
    Except.bind, pure, Except.pure]
  by_cases hlo : (parts.length : Int) < minimum
  · simp only [hlo, ite_true]
    simp
    omega
  by_cases hhi : (parts.length : Int) > maximum
  · simp only [hlo, hhi, ite_true, ite_false]
    simp
    omega
  simp only [hlo, hhi, ite_false]
  have hlo' : decide (minimum ≤ parts.length) = true := by simp; omega
  have hhi' : decide ((parts.length : Int) ≤ maximum) = true := by simp; omega
  rw [hlo', hhi', Bool.true_and, Bool.true_and]
  cases hfind : parts.find? (fun p => !(cleanOptions options).contains p) with
  | some p =>
    have hp := List.find?_some hfind
    have hmem := List.mem_of_find?_eq_some hfind
    have hall : parts.all (cleanOptions options).contains = false := by
      rw [Bool.eq_false_iff]
      intro hall
      rw [List.all_eq_true] at hall
      have := hall p hmem
      simp_all
    simp [hall]
  | none =>
    have hall : parts.all (cleanOptions options).contains = true := by
      rw [List.all_eq_true]
      intro x hx
      simpa using List.find?_eq_none.mp hfind x hx
    cases hfault : placementFault options parts <;> simp [hall]

end Judging

theorem selectedParts_of_ne {delimiter value : String} (hne : value.isEmpty = false) :
    selectedParts delimiter value = chosenParts delimiter value := by
  simp [selectedParts, hne]

/-! ## Completing a value -/

section Completing

variable (options : List String) (delimiter : String) (maximum : Int)

theorem multipleCompletions_empty :
    multipleCompletions options delimiter maximum "" =
      .ok ((cleanOptions options).filter (fun _ => decide (0 < maximum))) := by
  simp [multipleCompletions, pure, Except.pure, bind, Except.bind]

/-- A value whose first part is not empty may take the options not chosen that need
neither come first nor stand alone, unless its last part must come last, while it has
fewer parts than the greatest count. -/
theorem multipleCompletions_of_parts {value : String} {parts : List String}
    (hne : value.isEmpty = false) (hparts : chosenParts delimiter value = .ok parts)
    (hnil : parts ≠ []) (hstart : parts.head hnil ≠ "") :
    multipleCompletions options delimiter maximum value =
      .ok ((cleanOptions options).filter (fun o => !parts.contains o &&
        !(mustBeFirst options o || mustBeOnly options o ||
          mustBeLast options (parts.getLast hnil)) &&
        decide ((parts.length : Int) < maximum))) := by
  obtain ⟨p, rest, rfl⟩ := List.exists_cons_of_ne_nil hnil
  have hp : p.isEmpty = false := by simpa using hstart
  simp only [multipleCompletions, hne, hparts, Bool.false_eq_true, ite_false, bind,
    Except.bind, pure, Except.pure, hp, Bool.not_false, Bool.true_and,
    List.getLast?_eq_some_getLast hnil]

end Completing

/-! ## Completions and valid appends -/

section Appends

variable {options : List String} {delimiter : String} {minimum maximum : Int} {host : Host}
  {ctx : Table Value} {value : String}

/-- A clean option appended to a valid value with parts, none of which must stand alone,
gives a valid value exactly when the completions' own tests pass for it: it need neither
come first nor stand alone, the last part need not come last, and one more part stays
within the maximum. -/
theorem accepts_appendOption (hdelim : delimiter ≠ "") (hunb : Text.Unbordered delimiter.toList)
    {parts : List String} (hne : value.isEmpty = false)
    (hparts : chosenParts delimiter value = .ok parts) (hnil : parts ≠ [])
    (hvalid :
      (Validator.multipleChoice options delimiter minimum maximum).accepts host ctx value = true)
    (halone : ∀ p ∈ parts, mustBeOnly options p = false) {c : String}
    (hc : c ∈ cleanOptions options) (hocc : Text.occursIn delimiter.toList c.toList = false)
    (hstrip : Text.stripString c = c) :
    (Validator.multipleChoice options delimiter minimum maximum).accepts host ctx
        (appendOption delimiter value c) =
      (!(mustBeFirst options c || mustBeOnly options c ||
          mustBeLast options (parts.getLast hnil)) &&
        decide ((parts.length : Int) < maximum)) := by
  rw [multipleChoice_accepts_of_parts options delimiter minimum maximum host ctx hne hparts]
    at hvalid
  simp only [Bool.and_eq_true, decide_eq_true_eq] at hvalid
  obtain ⟨⟨⟨hlo, -⟩, hall⟩, hplace⟩ := hvalid
  have hplaced :=
    (placementFault_eq_none_iff options parts).mp (Option.isNone_iff_eq_none.mp hplace)
  have hne' : (value ++ delimiter ++ c).isEmpty = false := by
    simp only [String.isEmpty_eq_false_iff] at hne ⊢
    intro h
    simp_all
  have happ : appendOption delimiter value c = value ++ delimiter ++ c := by
    simp [appendOption, hne]
  rw [happ, multipleChoice_accepts_of_parts options delimiter minimum maximum host ctx hne'
    (chosenParts_append hdelim hunb hparts hocc hstrip)]
  -- each test of the appended value is one of the completions' tests, or already passed
  have hfault : (placementFault options (parts ++ [c])).isNone =
      (!mustBeLast options (parts.getLast hnil) && !mustBeOnly options c &&
        !mustBeFirst options c) := by
    rw [Bool.eq_iff_iff, Option.isNone_iff_eq_none, placementFault_eq_none_iff,
      placedWell_append hplaced halone hnil]
    simp [and_assoc]
  have hall' : (parts ++ [c]).all (cleanOptions options).contains = true := by
    simp only [List.all_append, hall, List.all_cons, List.all_nil, Bool.and_true,
      Bool.true_and]
    exact List.contains_iff_mem.mpr hc
  have hcount : decide (minimum ≤ ((parts ++ [c]).length : Int)) = true := by simp; omega
  have hbound : decide (((parts ++ [c]).length : Int) ≤ maximum) =
      decide ((parts.length : Int) < maximum) := by
    simp only [List.length_append, List.length_singleton, decide_eq_decide]
    omega
  rw [hfault, hall', hcount, hbound]
  cases mustBeFirst options c <;> cases mustBeOnly options c <;>
    cases mustBeLast options (parts.getLast hnil) <;> simp

/-- For a valid value that is not one option marked to stand alone, the completions are
the options not chosen whose appending is valid, when the delimiter is not empty and does
not overlap itself and the options are not empty, hold no delimiter and have no blanks at
their ends. -/
theorem multipleCompletions_eq_valid_appends (hdelim : delimiter ≠ "")
    (hunb : Text.Unbordered delimiter.toList)
    (hclean : ∀ c ∈ cleanOptions options, c ≠ "" ∧
      Text.occursIn delimiter.toList c.toList = false ∧ Text.stripString c = c)
    (hvalid :
      (Validator.multipleChoice options delimiter minimum maximum).accepts host ctx value = true)
    (halone : ∀ parts, selectedParts delimiter value = .ok parts →
      ∀ p ∈ parts, mustBeOnly options p = false) :
    ∃ parts, selectedParts delimiter value = .ok parts ∧
      multipleCompletions options delimiter maximum value =
        .ok ((cleanOptions options).filter (fun c => !parts.contains c &&
          (Validator.multipleChoice options delimiter minimum maximum).accepts host ctx
            (appendOption delimiter value c))) := by
  cases hne : value.isEmpty
  · obtain ⟨pieces, -, hparts⟩ := chosenParts_ok hdelim value
    generalize pieces.map (fun p => Text.stripString (String.ofList p)) = parts at hparts
    refine ⟨parts, by rw [selectedParts_of_ne hne, hparts], ?_⟩
    have hnil := chosenParts_ne_nil hdelim hparts
    have hhead : parts.head hnil ≠ "" := by
      have hvalid' := hvalid
      rw [multipleChoice_accepts_of_parts options delimiter minimum maximum host ctx hne hparts]
        at hvalid'
      simp only [Bool.and_eq_true] at hvalid'
      exact (hclean _ (List.contains_iff_mem.mp
        (List.all_eq_true.mp hvalid'.1.2 _ (List.head_mem hnil)))).1
    rw [multipleCompletions_of_parts options delimiter maximum hne hparts hnil hhead]
    congr 1
    apply List.filter_congr
    intro c hc
    obtain ⟨-, hocc, hstrip⟩ := hclean c hc
    rw [accepts_appendOption hdelim hunb hne hparts hnil hvalid
      (halone parts (by rw [selectedParts_of_ne hne, hparts])) hc hocc hstrip, Bool.and_assoc]
  · obtain rfl : value = "" := String.isEmpty_iff.mp hne
    refine ⟨[], rfl, ?_⟩
    rw [multipleChoice_accepts_empty] at hvalid
    rw [multipleCompletions_empty]
    congr 1
    apply List.filter_congr
    intro c hc
    obtain ⟨hcne, hocc, hstrip⟩ := hclean c hc
    have hne' : c.isEmpty = false := by simpa using hcne
    rw [show appendOption delimiter "" c = c from rfl,
      multipleChoice_accepts_of_parts options delimiter minimum maximum host ctx hne'
        (chosenParts_option hdelim hocc hstrip)]
    have hfault : (placementFault options [c]).isNone = true := by
      rw [Option.isNone_iff_eq_none, placementFault_eq_none_iff]
      exact placedWell_singleton options c
    simp only [decide_eq_true_eq] at hvalid
    have hone : decide (minimum ≤ 1) = true := by simp; omega
    have hmax : decide ((1 : Int) ≤ maximum) = decide (0 < maximum) := by
      simp only [decide_eq_decide]
      omega
    simp [hfault, hc, hone, hmax]

end Appends

/-- A multiple choice whose delimiter is not empty and does not overlap itself, and whose
options without their marks are not empty, hold no delimiter and have no blanks at their
ends: for every valid value that is not one option marked to stand alone, the completions
are exactly the options not among the value's parts whose appending gives a valid value.
So cycling, which appends the first completion, gives a valid value again. -/
theorem multipleChoice_completions_valid_appends (options : List String) (delimiter : String)
    (minimum maximum : Int) (host : Host) (ctx : Table Value) (value : String)
    (hdelim : delimiter ≠ "") (hunb : Text.Unbordered delimiter.toList)
    (hclean : ∀ c ∈ cleanOptions options, c ≠ "" ∧
      Text.occursIn delimiter.toList c.toList = false ∧ Text.stripString c = c)
    (hvalid : (Validator.multipleChoice options delimiter minimum maximum).accepts host ctx value = true)
    (halone : ∀ parts, selectedParts delimiter value = .ok parts →
      ∀ p ∈ parts, mustBeOnly options p = false) :
    ∃ parts, selectedParts delimiter value = .ok parts ∧
      (∃ r, (Validator.multipleChoice options delimiter minimum maximum).completions host ctx value =
          .ok r ∧
        r.completions = (cleanOptions options).filter (fun c => !parts.contains c &&
          (Validator.multipleChoice options delimiter minimum maximum).accepts host ctx
            (appendOption delimiter value c))) ∧
      ∃ w, (Validator.multipleChoice options delimiter minimum maximum).cycleNext host ctx value =
          .ok w ∧
        (Validator.multipleChoice options delimiter minimum maximum).accepts host ctx w = true := by
  obtain ⟨parts, hsel, hcomp⟩ :=
    multipleCompletions_eq_valid_appends hdelim hunb hclean hvalid halone
  refine ⟨parts, hsel, ⟨_, by simp only [completions, hcomp]; rfl, rfl⟩, ?_⟩
  generalize hoffers : (cleanOptions options).filter (fun c => !parts.contains c &&
    (Validator.multipleChoice options delimiter minimum maximum).accepts host ctx
      (appendOption delimiter value c)) = offers at hcomp
  cases offers with
  | nil => exact ⟨value, by simp only [cycleNext, multipleCycle, hcomp]; rfl, hvalid⟩
  | cons o rest =>
    have ho : o ∈ (cleanOptions options).filter (fun c => !parts.contains c &&
        (Validator.multipleChoice options delimiter minimum maximum).accepts host ctx
          (appendOption delimiter value c)) := by
      rw [hoffers]
      exact List.mem_cons_self
    have hacc := (Bool.and_eq_true _ _).mp (List.mem_filter.mp ho).2
    exact ⟨appendOption delimiter value o, by simp only [cycleNext, multipleCycle, hcomp]; rfl,
      hacc.2⟩

/-- The multiple choice of `$first`, `x`, `y`, `last$` and `$none$`. -/
def placedChoice : Validator :=
  .multipleChoice ["$first", "x", "y", "last$", "$none$"] "," 0 999

/-- A host with no files on which no program can be started. -/
def emptyHost : Host :=
  { files := {}, cwd := [], env := [], behaviour := fun _ _ ↦ .error .execFormat }

/-- With the options `$first`, `x`, `y`, `last$` and `$none$`, the value `first,x` is offered
the options whose appending is valid. -/
theorem multipleChoice_completions_first_x :
    ∃ parts, selectedParts "," "first,x" = .ok parts ∧
      (∃ r, placedChoice.completions emptyHost [] "first,x" = .ok r ∧
        r.completions = (cleanOptions ["$first", "x", "y", "last$", "$none$"]).filter
          (fun c => !parts.contains c &&
            placedChoice.accepts emptyHost [] (appendOption "," "first,x" c))) ∧
      ∃ w, placedChoice.cycleNext emptyHost [] "first,x" = .ok w ∧
        placedChoice.accepts emptyHost [] w = true :=
  multipleChoice_completions_valid_appends ["$first", "x", "y", "last$", "$none$"] "," 0 999
    emptyHost [] "first,x" (by decide) (Text.unbordered_singleton ',') (by decide +kernel)
    (by decide +kernel) (by
      have hparts : (selectedParts "," "first,x").toOption = some ["first", "x"] := by
        decide +kernel
      intro parts hsel
      rw [hsel] at hparts
      cases hparts
      decide +kernel)

/-- A delimiter that overlaps itself: with the delimiter `,,` and the options `x,` and `y`,
the valid value `x,` is offered `y`, and `x,,,y`, which splits at `x` and `,y`, is refused. -/
theorem multipleChoice_overlapping_delimiter :
    (Validator.multipleChoice ["x,", "y"] ",," 0 999).accepts emptyHost [] "x," = true ∧
      ((Validator.multipleChoice ["x,", "y"] ",," 0 999).completions emptyHost [] "x,").toOption.map
        Verdict.completions = some ["y"] ∧
      appendOption ",," "x," "y" = "x,,,y" ∧
      (Validator.multipleChoice ["x,", "y"] ",," 0 999).accepts emptyHost [] "x,,,y" = false := by
  decide +kernel

end FlagLine.Validator
