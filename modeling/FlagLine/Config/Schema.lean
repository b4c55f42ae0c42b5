import FlagLine.Data.Value
import FlagLine.Data.Table
/-!
# The configuration

A configuration names categories of flags and their colours, maps of categories, themes,
global flags, programs with their own flags and aliases, key bindings per editing mode,
and command aliases. A flag is a category with the patterns that recognise it, names for
its capture groups, an optional validator and help entries. Validator settings stay
configuration data, since each validator reads its own keys; `ValidatorModel` is their
checked form.
-/

namespace FlagLine

/-- A help entry of a flag. -/
structure FlagHelp where
  flag : String
  description : String
  help : String := ""
  deriving Inhabited

/-- A flag: its category, the patterns that recognise it, names for capture groups that
the patterns leave unnamed, its validator settings and its help. -/
structure Flag where
  category : String
  regexps : List String := []
  captureGroups : List String := []
  validator : Option Value := none
  help : List FlagHelp := []
  deriving Inhabited

/-- A category: its name as written, and the colours of its capture groups by group name
or position. -/
structure Category where
  name : String := ""
  colors : Table String := []
  deriving Inhabited

/-- A named group of categories and of other groups. -/
structure CategoryMap where
  name : String
  categories : List String := []
  deriving Inhabited

/-- A theme: the colour of unmatched text and a colour per category. -/
structure Theme where
  name : String
  defaultColor : String := "white"
  categories : Table String := []
  deriving Inhabited

/-- Settings of one program. -/
structure ProgramSettings where
  defaultValidator : Option Value := none
  deriving Inhabited

/-- A program: its name, its aliases (literal names, `glob:` patterns or `regexp:`
patterns), its own flags and settings. -/
structure Program where
  name : String
  aliases : List String := []
  flags : List Flag := []
  settings : Option ProgramSettings := none
  deriving Inhabited

/-- Settings of the whole editor. -/
structure Settings where
  color : Bool := true
  defaultValidator : Option Value := none
  deriving Inhabited

/-- A configuration. Sections are tables under lower-cased names, except key bindings and
aliases, which keep their names as written. -/
structure Config where
  settings : Settings := {}
  categories : Table Category := []
  categoryMaps : Table CategoryMap := []
  themes : Table Theme := []
  flags : List Flag := []
  programs : Table Program := []
  keybindings : Table (Table String) := []
  aliases : Table String := []
  deriving Inhabited

/-- Whether a file validator offers files or only directories. -/
inductive FileKind where
  | file
  | directory
  deriving DecidableEq, Inhabited

/-- The checked settings of a file or directory validator. -/
structure FileRule where
  kind : FileKind := .file
  extensions : List String := []
  multiple : Bool := false
  separator : String := ","
  sort : String := "name"
  includes : List String := []
  excludes : List String := []
  startupDirectory : String := "."
  change : Bool := true
  deriving Inhabited

/-- The checked settings of a validator, one form per kind. -/
inductive ValidatorModel where
  | files (rule : FileRule)
  | choice (options : List String)
  | multipleChoice (options : List String) (delimiter : String) (minimum maximum : Int)
  | warnings (negation : String)
  | custom (command : String)
  deriving Inhabited

/-- The name that a checked validator's kind goes by; file and directory rules share it. -/
def ValidatorModel.typeName : ValidatorModel → String
  | .files _ => "FileValidator"
  | .choice _ => "ChoiceValidator"
  | .multipleChoice .. => "MultipleChoiceValidator"
  | .warnings _ => "WarningsValidator"
  | .custom _ => "CustomValidator"

end FlagLine
