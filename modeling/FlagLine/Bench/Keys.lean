import FlagLine.Bench.Basic
import FlagLine.Config.Load
import FlagLine.Editor.Bindings
import FlagLine.Match.Words
/-!
# The key workload

The key workload reads key specifications in turn: control keys, a shifted control key,
alt keys that are sequences, named keys, a function key, a name of the terminal layer
written as is, a single character, a name nobody knows, the word `space`, and the
control key of the underscore. It then resolves command aliases with and without
arguments, of a command without alias and of nothing, and counts the bindings of the
usual editing keys and one more function key: those of the normal mode,
of the configure mode, which has none, of the duplicates mode, and of all modes once the
configure mode binds one key. The configuration also has a pattern that does not compile.
-/

namespace FlagLine.Bench

open Fingerprint

def keySpecs : List String :=
  ["ctrl-a", "ctrl-shift-z", "alt-b", "alt-backspace", "enter", "escape", "up", "f5", "ctrl-d", "c-q",
   "x", "totally-unknown", "space", "ctrl-_"]

def aliasedCommands : List String :=
  ["lo Includes extra", "lo Includes", "q", "unknown cmd", "", "dup -x"]

/-- A key as a result: the name it is bound under or the text as written. -/
def strokeDatum : Keys.Stroke → Datum
  | .named n => .text n
  | .text s => .text s

def keySpecDatum : Keys.KeySpec → Datum
  | .one s => strokeDatum s
  | .sequence ss => tuple (ss.map strokeDatum)

/-- The key bindings and aliases of the key workload, as YAML: the usual editing keys,
one more function key in the normal mode, and the keys of the duplicates mode. -/
def keysConfigText : String :=
  "\n".intercalate
  ["keybindings:", "  normal:",
   "    ctrl-a: move-line-start", "    ctrl-e: move-line-end", "    ctrl-b: move-char-left",
   "    ctrl-f: move-char-right", "    alt-b: move-word-left", "    alt-f: move-word-right",
   "    ctrl-p: move-up", "    ctrl-n: move-down", "    alt-p: move-param-prev",
   "    alt-n: move-param-next", "    ctrl-d: delete-char", "    ctrl-h: delete-char-left",
   "    backspace: delete-char-left", "    ctrl-w: delete-word-left", "    alt-d: delete-word-right",
   "    alt-backspace: delete-param", "    ctrl-k: delete-to-end", "    ctrl-u: delete-to-start",
   "    ctrl-_: undo", "    ctrl-y: paste", "    ctrl-l: lights-off", "    ctrl-shift-d: show-duplicates",
   "    ctrl-q: \"quit -p\"", "    ctrl-c: \"quit -y\"", "    escape: quit", "    enter: \"quit -p\"",
   "    f5: lo",
   "  duplicates:",
   "    left: duplicate-prev", "    right: duplicate-next", "    up: duplicate-previous-group",
   "    down: duplicate-next-group", "    space: duplicate-select", "    a: duplicate-all",
   "    n: duplicate-none", "    k: duplicates-keep", "    d: duplicates-delete",
   "    f: duplicates-first", "    escape: duplicates-exit", "    enter: duplicates-exit",
   "    q: duplicates-exit",
   "aliases:", "  q: quit", "  qp: \"quit -p\"", "  lo: lights-off", "  dup: show-duplicates",
   "flags:", "  - category: Broken", "    regexps: [\"([unclosed\"]", ""]

def keysConfig : Config := (Config.ofYaml keysConfigText).toOption.getD {}

def boundIn (c : Config) (mode : String) : Nat :=
  ((KeyMap.ofConfig c).toOption.map (fun k => (k.forMode mode).length)).getD 0

def keysRun (n : Nat) : RunResult :=
  let c := keysConfig
  let configured := { c with keybindings := c.keybindings.insert "configure" [("ctrl-x", "quit")] }
  let total := bindingModes.foldl (fun acc m => acc + boundIn configured m) 0
  { result := list ((cycleTake keySpecs n).map (fun s => keySpecDatum (Keys.parse s)) ++
      aliasedCommands.map (fun s => .text (Commands.resolveAlias c.aliases s)) ++
      [count (boundIn c "normal"), count (boundIn c "configure"), count (boundIn c "duplicates"),
       count total])
    warnings := ((Matcher.make c none).toOption.map Matcher.warnings).getD [] }

def keysWorkload : Workload :=
  Workload.ofPure "bench_keybindings" "n_specs" [150, 600, 2400] 600 (fun n => pure (keysRun n))

end FlagLine.Bench
