import FlagLine.Validator.Basic
/-!
# Completions from a program

A command validator runs its program with the partial value and the working directory as
arguments, and the value, the directory and every text of the context in its
environment, as `PROMPT_` and the upper-cased key. Each line the program prints is a
completion, blanks stripped and blank lines dropped. A program that fails reports its
error output; one that cannot be started, or outlasts the time limit, says so, and a run
broken off gives its reason. A value is valid unless the program offers completions and
the value is not among them.
-/

namespace FlagLine.Validator

def isLineEnd (c : Char) : Bool :=
  c == '\n' || c == '\r' || c.toNat == 0x0b || c.toNat == 0x0c || c.toNat == 0x1c ||
    c.toNat == 0x1d || c.toNat == 0x1e || c.toNat == 0x85 || c.toNat == 0x2028 || c.toNat == 0x2029

/-- The lines of an output, stripped of blanks, without the blank ones. -/
def outputLines (s : String) : List String :=
  ((s.toList.splitOnP isLineEnd).map (fun l => Text.stripString (String.ofList l))).filter
    (fun l => !l.isEmpty)

/-- The environment of a command run: the host's, with the value, the directory and the
texts of the context. -/
def commandEnvironment (h : Host) (ctx : Table Value) (value cwd : String) : Table String :=
  let base := (h.env.insert "PROMPT_VALUE" value).insert "PROMPT_CWD" cwd
  ctx.foldl (fun env e =>
    match e.2 with
    | .str s => env.insert ("PROMPT_" ++ String.map Text.upperChar e.1) s
    | _ => env) base

/-- The completions that a program gives for a partial value. -/
def commandCompletions (command : String) (timeout : Value) (h : Host) (ctx : Table Value)
    (value : String) : Verdict :=
  if command.isEmpty then {}
  else
    let cwd := contextDirectory h ctx
    let limit := timeout.text
    match h.spawn h.files command [value, cwd] (commandEnvironment h ctx value cwd) cwd with
    | .error e =>
      if e.errno == .notFound then { valid := false, message := s!"Command not found: {command}" }
      else { valid := false, message := e.message }
    | .ok (.stalled, _) => { valid := false, message := s!"Command timed out after {limit}s" }
    | .ok (.failed reason, _) => { valid := false, message := reason }
    | .ok (.exited code out err, _) =>
      if code != 0 then
        { valid := false, message := if err.isEmpty then "Command failed" else Text.stripString err }
      else { completions := outputLines out }

/-- Whether a value is valid for a program: it is, unless the program offers completions
and the value is not among them. -/
def commandCheck (command : String) (timeout : Value) (h : Host) (ctx : Table Value)
    (value : String) : Verdict :=
  let offered := (commandCompletions command timeout h ctx value).completions
  if !offered.isEmpty && !offered.contains value then
    { valid := false, message := s!"Invalid value: {value}" }
  else {}

end FlagLine.Validator
