import FlagLine.Validator.Files
import FlagLine.Validator.Choice
import FlagLine.Validator.Command
/-!
# Asking a validator

Every validator completes and checks a value. Cycling steps to the completion after the
value, or before it, wrapping around; a value that is not a completion steps to the first
completion, or to the last when stepping back, and a value without completions stays.
A multiple choice cycles by appending the first option it may take, and a warning
cycles by switching its negating prefix on or off.
-/

namespace FlagLine.Validator

/-- A warning name with its negating prefix removed when present, else added. -/
def toggleWarning (negation warning : String) : String :=
  if warning.startsWith negation then String.ofList (warning.toList.drop negation.length)
  else negation ++ warning

/-- Whether a warning name is switched off by its negating prefix. -/
def isDisabled (negation warning : String) : Bool := warning.startsWith negation

def baseName (negation warning : String) : String :=
  if warning.startsWith negation then String.ofList (warning.toList.drop negation.length) else warning

/-- The completions a validator offers for a partial value. -/
def completions (v : Validator) (h : Host) (ctx : Table Value) (value : String) :
    Except ValidatorError Verdict :=
  match v with
  | .files r => do pure { completions := ← r.complete h (contextDirectory h ctx) value }
  | .choice options => pure { completions := choiceCompletions options value }
  | .multipleChoice options delimiter _ maximum => do
    pure { completions := ← multipleCompletions options delimiter maximum value }
  | .warnings negation => pure { completions := [toggleWarning negation value] }
  | .custom command timeout => pure (commandCompletions command timeout h ctx value)

def check (v : Validator) (h : Host) (ctx : Table Value) (value : String) :
    Except ValidatorError Verdict :=
  match v with
  | .files r => r.check h (contextDirectory h ctx) value
  | .choice options => pure (choiceCheck options value)
  | .multipleChoice options delimiter minimum maximum =>
    multipleCheck options delimiter minimum maximum value
  | .warnings _ =>
    pure (if value.isEmpty then { valid := false, message := "Warning name required" } else {})
  | .custom command timeout => pure (commandCheck command timeout h ctx value)

/-- The completion after a value, wrapping around; the first when the value is none of
them, and the value itself when there are none. -/
def stepAfter (cs : List String) (value : String) : String :=
  match cs.idxOf? value with
  | some i => cs.getD ((i + 1) % cs.length) value
  | none => cs.headD value

/-- The completion before a value, wrapping around; the last when the value is none of
them, and the value itself when there are none. -/
def stepBefore (cs : List String) (value : String) : String :=
  match cs.idxOf? value with
  | some i => cs.getD ((i + cs.length - 1) % cs.length) value
  | none => cs.getLastD value

def cycleNext (v : Validator) (h : Host) (ctx : Table Value) (value : String) :
    Except ValidatorError String :=
  match v with
  | .multipleChoice options delimiter _ maximum => multipleCycle options delimiter maximum value
  | .warnings negation => pure (toggleWarning negation value)
  | _ => do pure (stepAfter (← v.completions h ctx value).completions value)

def cyclePrev (v : Validator) (h : Host) (ctx : Table Value) (value : String) :
    Except ValidatorError String :=
  match v with
  | .warnings negation => pure (toggleWarning negation value)
  | _ => do pure (stepBefore (← v.completions h ctx value).completions value)

end FlagLine.Validator
