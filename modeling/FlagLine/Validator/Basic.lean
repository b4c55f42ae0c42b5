import FlagLine.Config.Schema
import FlagLine.Config.Field
import FlagLine.Host.Run
/-!
# Validators of flag values

A validator offers completions for the value of a flag and judges a finished value. It is
built from its settings, a dictionary whose `type` says which kind it is (a file, when
absent) and whose other keys the kind reads, each with its default; a kind that is not
known builds no validator. An answer lists completions, or says whether the value is
valid and why not. The context of a question is a dictionary; its `cwd` is the directory
that relative paths start from.
-/

namespace FlagLine

/-- What a validator answers: completions, or whether a value is valid and why not. -/
structure Verdict where
  completions : List String := []
  valid : Bool := true
  message : String := ""
  selectedIndex : Nat := 0
  deriving Inhabited

/-- Why a validator could not answer: a separator or delimiter that is empty cuts nothing. -/
inductive ValidatorError where
  | emptySeparator
  deriving DecidableEq, Repr

def ValidatorError.message : ValidatorError → String
  | .emptySeparator => "empty separator"

/-- A validator of flag values. -/
inductive Validator where
  /-- Paths of files, or of directories only, as the rule's kind says. -/
  | files (rule : FileRule)
  /-- One of a list of options. -/
  | choice (options : List String)
  /-- Several options joined by a delimiter, between a least and a greatest count. An
  option written `$o` must come first, `o$` last, and `$o$` alone. -/
  | multipleChoice (options : List String) (delimiter : String) (minimum maximum : Int)
  /-- Warning names, switched off by a negating prefix. -/
  | warnings (negation : String)
  /-- Completions from the lines that a program prints, within a time limit. -/
  | custom (command : String) (timeout : Value)
  deriving Inhabited

namespace Validator

def textOr (settings : Value) (k : String) (d : String) : String :=
  match settings.get? k with
  | some (.str s) => s
  | _ => d

def textsOf (settings : Value) (k : String) : List String :=
  match settings.get? k with
  | some (.list xs) => xs.filterMap Value.str?
  | _ => []

/-- Whether a setting is on, or the default when it is absent. -/
def switchOr (settings : Value) (k : String) (d : Bool) : Bool :=
  match settings.get? k with
  | some v => v.truthy
  | none => d

def integerOr (settings : Value) (k : String) (d : Int) : Int :=
  match settings.get? k with
  | some (.int n) => n
  | some (.bool b) => if b then 1 else 0
  | _ => d

/-- The file rule that settings give, of a kind. A directory rule has no extensions. -/
def fileRule (kind : FileKind) (settings : Value) : FileRule :=
  { kind := kind
    extensions := if kind == .directory then [] else textsOf settings "extensions"
    multiple := switchOr settings "multiple" false
    separator := textOr settings "separator" ","
    sort := textOr settings "sort" "name"
    includes := textsOf settings "include"
    excludes := textsOf settings "exclude"
    startupDirectory := textOr settings "startup_directory" "."
    change := switchOr settings "change" true }

/-- The validator that settings build: none for absent settings and for a kind that is
not known. Settings that are not a dictionary cannot be read. -/
def ofSettings? (settings : Value) : Except ModelError (Option Validator) :=
  match settings with
  | .null => .ok none
  | .dict _ =>
    match settings.get? "type" |>.getD (.str "file") with
    | .str "file" => .ok (some (.files (fileRule .file settings)))
    | .str "directory" => .ok (some (.files (fileRule .directory settings)))
    | .str "choice" => .ok (some (.choice (textsOf settings "options")))
    | .str "multiple-choice" =>
      .ok (some (.multipleChoice (textsOf settings "options") (textOr settings "delimiter" ",")
        (integerOr settings "minimum" 0) (integerOr settings "maximum" 999)))
    | .str "warnings" => .ok (some (.warnings (textOr settings "prefix" "no-")))
    | .str "custom" =>
      .ok (some (.custom (textOr settings "command" "")
        ((settings.get? "timeout").getD (.float 5.0))))
    | _ => .ok none
  | _ => .error .misshapen

def typeName : Validator → String
  | .files r => match r.kind with
    | .file => "FileValidator"
    | .directory => "DirectoryValidator"
  | .choice _ => "ChoiceValidator"
  | .multipleChoice .. => "MultipleChoiceValidator"
  | .warnings _ => "WarningsValidator"
  | .custom .. => "CustomValidator"

end Validator

/-- The directory that a question's relative paths start from: its context's `cwd`, else
the host's working directory. -/
def contextDirectory (h : Host) (ctx : Table Value) : String :=
  match ctx.find? "cwd" with
  | some (.str s) => s
  | _ => h.cwdText

end FlagLine
