import FlagLine.Shell.Words
import FlagLine.Config.Schema
/-!
# Editor commands by name

The editor's commands are known by their full names, in the order they are listed here,
and by abbreviations: an abbreviation splits at `-` like the names do, and each of its
parts begins the name's part at the same place. A full name always wins; otherwise one
matching name is the command, several are an ambiguity, and none is no command. A
command string is a name followed by arguments, split as shell words; its first word
may be an alias from the configuration, which is replaced by what it stands for.
-/

namespace FlagLine.Commands

/-- The names of the editor's commands, in the order they are registered. -/
def names : List String :=
  ["move-char-left", "move-char-right", "move-word-left", "move-word-right", "move-line-start",
   "move-line-end", "move-param-next", "move-param-prev", "move-param-equivalent", "delete-char",
   "delete-char-left", "delete-word-left", "delete-word-right", "delete-param", "delete-to-end",
   "delete-to-start", "undo", "copy", "cut", "paste", "editor", "lights-off", "show-duplicates",
   "quit", "duplicate-prev", "duplicate-next", "duplicate-previous-group", "duplicate-next-group",
   "duplicate-select", "duplicate-deselect", "duplicate-all", "duplicate-none", "duplicates-keep",
   "duplicates-delete", "duplicates-first", "duplicates-exit", "flags-join", "flags-move",
   "flags-sort"]

/-- Whether an abbreviation stands for a name: no more parts than the name, and each part
begins the name's part at the same place. -/
def abbreviates (short name : String) : Bool :=
  let ap := short.splitOn "-"
  let np := name.splitOn "-"
  ap.length ≤ np.length && (ap.zip np).all (fun (a, n) => n.startsWith a)

/-- A list of names written as a bracketed list of quoted names. -/
def quotedList (ns : List String) : String :=
  "[" ++ ", ".intercalate (ns.map (fun n => "'" ++ n ++ "'")) ++ "]"

/-- The command a name or abbreviation stands for among some names, none if it stands
for none; an ambiguous abbreviation is an error naming the candidates. -/
def lookupIn (registered : List String) (name : String) : Except String (Option String) :=
  if registered.contains name then .ok (some name)
  else
    match registered.filter (abbreviates name) with
    | [] => .ok none
    | [m] => .ok (some m)
    | ms => .error s!"Ambiguous command '{name}': matches {quotedList ms}"

def lookup (name : String) : Except String (Option String) := lookupIn names name

def sortedNames : List String := names.mergeSort (fun a b => decide (a ≤ b))

/-- The name and arguments of a command string; an empty string has an empty name. -/
def parseCommand (command : String) : Except Shell.SplitError (String × List String) := do
  match ← Shell.split command with
  | [] => pure ("", [])
  | n :: args => pure (n, args)

/-- A command string with a leading alias replaced by what it stands for; the rest of
the string follows after one space. -/
def resolveAlias (aliases : Table String) (command : String) : String :=
  match Text.firstWord? command.toList with
  | none => command
  | some (word, rest) =>
    match aliases.find? (String.ofList word) with
    | some resolved => if rest.isEmpty then resolved else resolved ++ " " ++ String.ofList rest
    | none => command

/-- What running a command did: whether it succeeded, its message, and whether the editor
should exit, print its line and reset it first. -/
structure Outcome where
  success : Bool := true
  message : String := ""
  exitEditor : Bool := false
  printResult : Bool := false
  resetBeforePrint : Bool := false
  deriving DecidableEq, Repr, Inhabited

end FlagLine.Commands
