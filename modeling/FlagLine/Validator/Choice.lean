import FlagLine.Validator.Basic
/-!
# Choosing among options

A single choice completes to the options that start with the partial value, case aside,
and accepts an option in any case. A multiple choice joins options by a delimiter. Each
option may carry placement marks: `$o` must come first, `o$` last, `$o$` alone. The
completions are the options not yet chosen that may still be appended. A value is valid
when its count is within bounds, each part is an option, and every mark is respected;
the first fault found is reported.
-/

namespace FlagLine.Validator

/-- The options that a partial value may complete to: all, for an empty value. -/
def choiceCompletions (options : List String) (value : String) : List String :=
  if value.isEmpty then options
  else options.filter (fun o => (Text.lowerString o).startsWith (Text.lowerString value))

/-- Whether a value is one of the options, case aside. -/
def choiceCheck (options : List String) (value : String) : Verdict :=
  if options.contains value || options.any (fun o => Text.lowerString o == Text.lowerString value) then {}
  else
    let expected := ", ".intercalate options
    { valid := false, message := s!"Invalid choice: {value} (expected: {expected})" }

/-- An option of a multiple choice without its marks, and where it must stand. -/
structure Placed where
  name : String
  first : Bool
  last : Bool

/-- Reads the marks of an option: a leading `$` asks for the first place, a trailing one
for the last, and both for the only one. -/
def Placed.ofOption (o : String) : Placed :=
  let first := o.startsWith "$"
  let last := o.endsWith "$"
  let cs := if first then o.toList.drop 1 else o.toList
  let cs := if last then cs.dropLast else cs
  { name := String.ofList cs, first := first, last := last }

/-- The options of a multiple choice without their marks. -/
def cleanOptions (options : List String) : List String := options.map (fun o => (Placed.ofOption o).name)

/-- Whether some option of this name must stand alone. -/
def mustBeOnly (options : List String) (name : String) : Bool :=
  options.any (fun o => let p := Placed.ofOption o; p.name == name && p.first && p.last)

/-- Whether some option of this name must come first, and only that. -/
def mustBeFirst (options : List String) (name : String) : Bool :=
  options.any (fun o => let p := Placed.ofOption o; p.name == name && p.first && !p.last)

/-- Whether some option of this name must come last, and only that. -/
def mustBeLast (options : List String) (name : String) : Bool :=
  options.any (fun o => let p := Placed.ofOption o; p.name == name && p.last && !p.first)

/-- The parts of a value cut at the delimiter, each stripped of blanks. -/
def chosenParts (delimiter value : String) : Except ValidatorError (List String) :=
  match Text.splitOn? delimiter.toList value.toList with
  | some parts => .ok (parts.map (fun p => Text.stripString (String.ofList p)))
  | none => .error .emptySeparator

/-- The options that may be appended to a partial value. -/
def multipleCompletions (options : List String) (delimiter : String) (maximum : Int)
    (value : String) : Except ValidatorError (List String) := do
  let parts ← if value.isEmpty then pure [] else chosenParts delimiter value
  let started := match parts with
    | p :: _ => !p.isEmpty
    | [] => false
  let lastIsLast := match parts.getLast? with
    | some l => mustBeLast options l
    | none => false
  pure ((cleanOptions options).filter (fun o =>
    !parts.contains o &&
    !(started && (mustBeFirst options o || mustBeOnly options o || lastIsLast)) &&
    (parts.length : Int) < maximum))

/-- The first part that breaks a placement mark, with the fault. -/
def placementFault (options : List String) (parts : List String) : Option String :=
  let n := parts.length
  let faults := parts.zipIdx.filterMap (fun (p, i) =>
    if mustBeOnly options p && n > 1 then some s!"'{p}' must be the only selection"
    else if mustBeFirst options p && i > 0 then some s!"'{p}' must be first"
    else if mustBeLast options p && i + 1 < n then some s!"'{p}' must be last"
    else none)
  faults.head?

def multipleCheck (options : List String) (delimiter : String) (minimum maximum : Int)
    (value : String) : Except ValidatorError Verdict := do
  let tooFew : Verdict := { valid := false, message := s!"At least {minimum} selection(s) required" }
  if value.isEmpty then return (if minimum > 0 then tooFew else {})
  let parts ← chosenParts delimiter value
  if (parts.length : Int) < minimum then return tooFew
  if (parts.length : Int) > maximum then
    return { valid := false, message := s!"At most {maximum} selection(s) allowed" }
  match parts.find? (fun p => !(cleanOptions options).contains p) with
  | some p => return { valid := false, message := s!"Invalid option: {p}" }
  | none =>
    match placementFault options parts with
    | some m => return { valid := false, message := m }
    | none => return {}

/-- A partial value with the first option that may be appended. -/
def multipleCycle (options : List String) (delimiter : String) (maximum : Int) (value : String) :
    Except ValidatorError String := do
  match ← multipleCompletions options delimiter maximum value with
  | [] => pure value
  | o :: _ => pure (if value.isEmpty then o else value ++ delimiter ++ o)

/-- A value with an option removed when chosen, else appended. -/
def toggleOption (delimiter value option : String) : Except ValidatorError String := do
  if value.isEmpty then return option
  let parts ← chosenParts delimiter value
  let parts := if parts.contains option then parts.erase option else parts ++ [option]
  return delimiter.intercalate parts

end FlagLine.Validator
