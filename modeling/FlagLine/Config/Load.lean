import FlagLine.Config.Read
import FlagLine.Config.Defaults
import FlagLine.Data.Merge
import FlagLine.Yaml.Load
import FlagLine.Host.Files
import FlagLine.Text.Glob
/-!
# Loading a configuration

A configuration is built from YAML data: a main file, then the files of a drop-in
directory merged over it, those ending in `.yaml` in name order and then those ending in
`.yml`. A file or directory that does not exist adds nothing, and a file whose data is
empty or false adds nothing either. Text that is not YAML fails as such; any other
failure, such as data that is not a dictionary, is a configuration that cannot be built.
-/

namespace FlagLine.Config

/-- Why a configuration could not be loaded. -/
inductive LoadError where
  | yaml (e : Yaml.YamlError)
  | invalid

def LoadError.message : LoadError → String
  | .yaml (.unreadable c) => s!"unacceptable character {quoteText c.toString}"
  | .yaml (.scan what) => s!"while scanning: {what}"
  | .yaml (.parse what) => s!"while parsing: {what}"
  | .yaml (.compose what) => s!"while composing: {what}"
  | .invalid => "the configuration is not valid"

/-- A configuration built from YAML data; data that is empty or false builds the empty
configuration. -/
def ofData (v : Value) : Except LoadError Config :=
  if !v.truthy then .ok {}
  else (Config.read v).mapError (fun _ => .invalid)

def yamlData (text : String) : Except LoadError Value := (Yaml.load text).mapError .yaml

def ofYaml (text : String) : Except LoadError Config := do ofData (← yamlData text)

/-- The data of a file: nothing for a missing file, and empty data for empty or false
YAML. -/
def fileData (files : FileTree) (cwd : List String) (path : String) : Except LoadError Value :=
  match files.statNormal cwd path with
  | none => .ok (.dict [])
  | some e =>
    match e.kind with
    | .directory => .error .invalid
    | .file => do
      let v ← yamlData e.content
      pure (if v.truthy then v else .dict [])

/-- Data merged over a dictionary; data that is not a dictionary cannot be merged. -/
def mergeInto (base : Value) (top : Value) : Except LoadError Value :=
  match base, top with
  | .dict a, .dict b => .ok (.dict (deepMerge a b))
  | _, _ => .error .invalid

/-- The names in a drop-in directory that a pattern accepts, in name order. -/
def dropinNames (entries : List Entry) (pattern : String) : List String :=
  let names := entries.filterMap (fun e => e.path.getLast?)
  (names.filter (Glob.accepts pattern)).mergeSort (fun a b => decide (a ≤ b))

def dropinData (files : FileTree) (cwd : List String) (dir : String) : Except LoadError Value :=
  match files.statNormal cwd dir with
  | none => .ok (.dict [])
  | some e =>
    match e.kind with
    | .file => .ok (.dict [])
    | .directory =>
      let entries := files.children e.path
      let names := dropinNames entries "*.yaml" ++ dropinNames entries "*.yml"
      names.foldlM (fun acc n => do
        mergeInto acc (← fileData files cwd (FileTree.render (e.path ++ [n])))) (.dict [])

/-- The configuration of a main file and a drop-in directory. -/
def load (files : FileTree) (cwd : List String) (main dropins : String) : Except LoadError Config := do
  let m ← fileData files cwd main
  let d ← dropinData files cwd dropins
  ofData (← mergeInto m d)

end FlagLine.Config
