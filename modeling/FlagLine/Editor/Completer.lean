import FlagLine.Match.Words
import FlagLine.Validator.Answer
/-!
# Completing a command line

The word under the cursor decides what is offered. In the first word the offers are
program names: the known programs, then the executable files of the search path, each
name once, filtered case aside by what is typed. In any other word the validator of the
word's flag offers values, else the default validator of the configuration, which is a
file validator unless the configuration names another. When a word has several
captures and the cursor is in the last one, only that capture is completed; otherwise
the word up to the cursor is. In the blanks between or after the words the default
validator completes an empty value. Each offer replaces the text being completed.
-/

namespace FlagLine

/-- An offer of the completer: the text to put in, where it starts relative to the
cursor (always back by the length of the text being completed), and how it is shown. -/
structure Completion where
  text : String
  startPosition : Int
  display : String
  deriving DecidableEq, Repr, Inhabited

/-- What the completer offered: program names, or values from a validator. -/
inductive Offers where
  | programs (cs : List Completion)
  | values (cs : List Completion)
  deriving Inhabited

def Offers.completions : Offers → List Completion
  | .programs cs => cs
  | .values cs => cs

namespace Completer

/-- The validator that settings build, none for settings that are empty or of a kind not
known. -/
def validatorOf (settings : Value) : Option Validator :=
  if settings.truthy then
    match Validator.ofSettings? settings with
    | .ok v => v
    | .error _ => none
  else none

/-- The validator of values without a flag validator: the configured default, else a
file validator. -/
def defaultValidator (c : Config) : Option Validator :=
  match c.settings.defaultValidator with
  | some v => if v.truthy then validatorOf v else some (.files (Validator.fileRule .file (.dict [])))
  | none => some (.files (Validator.fileRule .file (.dict [])))

/-- The word the cursor is in or touches, with its position; none when the cursor is in
the blanks between two words or after the last. -/
def wordAt (tokens : List Token) (cursor : Nat) : Option (Token × Nat) :=
  go tokens.zipIdx
where
  go : List (Token × Nat) → Option (Token × Nat)
    | [] => none
    | (t, i) :: rest =>
      if t.start ≤ cursor && cursor ≤ t.stop then some (t, i)
      else if t.stop < cursor && (tokens[i + 1]?.any (fun n => decide (n.start > cursor))) then none
      else go rest

/-- The part of a word to complete: the last capture when the word has several and the
cursor is in it, else the word up to the cursor. -/
def partialOf (t : Token) (r : WordMatch) (cursor : Nat) : String :=
  let upTo (start : Nat) : String :=
    String.ofList ((t.value.toList.take (cursor - t.start)).drop start)
  match r.groups.getLast? with
  | some g =>
    if r.groups.length > 1 && t.start + g.start ≤ cursor && cursor ≤ t.start + g.stop then upTo g.start
    else upTo 0
  | none => upTo 0

/-- The offers of a validator for a partial value. -/
def fromValidator (v : Option Validator) (h : Host) (partialValue : String) :
    Except ValidatorError (List Completion) :=
  match v with
  | none => .ok []
  | some v => do
    let r ← v.completions h [("cwd", .str h.cwdText)] partialValue
    pure (r.completions.map (fun c => ⟨c, -(partialValue.length : Int), c⟩))

/-- Whether a name is offered for what is typed: it begins with it, case aside. -/
def offered (typed name : String) : Bool :=
  typed.isEmpty || (Text.lowerString name).startsWith (Text.lowerString typed)

/-- The executable files of the search path that are offered, each name once and none
already seen. -/
def pathPrograms (h : Host) (typed : String) (seen : List String) : List String :=
  let dirs := ((Table.find? h.env "PATH").getD "").splitOn ":"
  let step (acc : List String) (dir : String) : List String :=
    match h.files.stat h.cwd dir with
    | .ok e =>
      if e.kind != .directory then acc
      else (h.files.children e.path).foldl (fun acc f =>
        match f.path.getLast? with
        | some name =>
          if f.kind == .file && !acc.contains name && offered typed name && f.executable then acc ++ [name]
          else acc
        | none => acc) acc
    | .error _ => acc
  (dirs.foldl step seen).drop seen.length

def programs (c : Config) (h : Host) (typed : String) : List Completion :=
  let known := (programNames c).filter (offered typed)
  (known ++ pathPrograms h typed known).map (fun n => ⟨n, -(typed.length : Int), n⟩)

/-- The offers for a line with the cursor at a position. -/
def complete (c : Config) (m : Matcher) (h : Host) (text : String) (cursor : Nat) :
    Except ValidatorError Offers := do
  let tokens := tokenize text
  let fallback := defaultValidator c
  match tokens.getLast? with
  | none => pure (.values (← fromValidator fallback h ""))
  | some last =>
    match wordAt tokens cursor with
    | none =>
      let typed := Text.stripString (String.ofList ((text.toList.take cursor).drop last.stop))
      pure (.values (← fromValidator fallback h typed))
    | some (t, 0) => pure (.programs (programs c h t.value))
    | some (t, _) =>
      let r := m.matchWord t
      let v := (r.flag.bind (fun f => f.validator.bind validatorOf)) <|> fallback
      pure (.values (← fromValidator v h (partialOf t r cursor)))

end Completer

end FlagLine
