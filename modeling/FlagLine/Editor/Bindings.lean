import FlagLine.Editor.Keys
import FlagLine.Editor.Commands
/-!
# Key bindings per mode

The configuration binds keys to command strings in each of the editor's modes:
`normal`, `duplicates` and `configure`. A binding resolves the command's alias, splits it
into the command name and its arguments, and then checks its keys; the first binding
that fails, mode by mode and in the order written, stops the whole key map. Merging the
bindings of modes is not supported: asking to merge any mode that exists fails, and
modes that do not exist are skipped.
-/

namespace FlagLine

/-- A key binding: the keys pressed in order, and the command with its arguments. -/
structure Binding where
  keys : List String
  command : String
  args : List String
  deriving DecidableEq, Repr, Inhabited

/-- The binding of a key specification to a command string. -/
def Binding.make (aliases : Table String) (spec command : String) : Except String Binding := do
  let resolved := Commands.resolveAlias aliases command
  let (name, args) ← (Commands.parseCommand resolved).mapError Shell.SplitError.message
  let keys ← (Keys.parse spec).bind
  pure ⟨keys, name, args⟩

/-- The modes that have key bindings, in the order they are set up. -/
def bindingModes : List String := ["normal", "duplicates", "configure"]

/-- The bindings of one mode, in the order the configuration writes them. -/
def modeBindings (c : Config) (mode : String) : Except String (List Binding) :=
  ((c.keybindings.find? mode).getD []).mapM (fun e => Binding.make c.aliases e.1 e.2)

/-- The bindings of every mode. -/
structure KeyMap where
  modes : Table (List Binding)
  deriving Inhabited

def KeyMap.ofConfig (c : Config) : Except String KeyMap := do
  let modes ← bindingModes.mapM (fun m => do pure (m, ← modeBindings c m))
  pure ⟨modes⟩

/-- The bindings of a mode; none for a mode without bindings. -/
def KeyMap.forMode (k : KeyMap) (mode : String) : List Binding := (k.modes.find? mode).getD []

/-- Merging modes: it fails as soon as one of them exists, and otherwise merges nothing. -/
def KeyMap.merge (k : KeyMap) (modes : List String) : Except Unit (List Binding) :=
  if modes.any k.modes.contains then .error () else .ok []

end FlagLine
