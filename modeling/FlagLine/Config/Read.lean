import FlagLine.Config.Schema
import FlagLine.Config.Field
/-!
# Reading a configuration from data

A configuration is read from a dictionary with text keys. Unknown keys are ignored and
absent sections are empty. The categories, category maps, themes and programs sections
must be dictionaries whose keys are texts: each entry is filed under its key in small
letters and keeps the key as its name, so an entry may not name itself again. A category
given as a text has that colour for its first group, one given as a list has its colours
by position, and one given otherwise has none. A category map given as a list lists its
members. Themes and programs given as anything but a dictionary are left out, as are
category maps that are neither a list nor a dictionary.
-/

namespace FlagLine

open Field

/-- Validator settings: a dictionary whose keys are read as texts. -/
def readValidatorSettings (v : Value) : Except ModelError Value := do
  let t ← table pure v
  pure (Value.ofPairs t)

namespace ValidatorModel

/-- The checked settings of a file or directory validator. -/
def readFileRule (kind : FileKind) (args : Table Value) : Except ModelError FileRule := do
  pure {
    kind := kind
    extensions := ← withDefault (listOf text) args "extensions" []
    multiple := ← withDefault switch args "multiple" false
    separator := ← withDefault text args "separator" ","
    sort := ← withDefault text args "sort" "name"
    includes := ← withDefault (listOf text) args "include" []
    excludes := ← withDefault (listOf text) args "exclude" []
    startupDirectory := ← withDefault text args "startup_directory" "."
    change := ← withDefault switch args "change" true }

/-- The checked settings that validator settings describe; `none` for null. A missing kind
is a file validator. -/
def read? (data : Value) : Except ModelError (Option ValidatorModel) :=
  match data with
  | .null => pure none
  | .dict es => do
    let kind := (Value.lookup (.str "type") es).getD (.str "file")
    let args ← arguments data
    match kind with
    | .str "file" => some <$> files <$> readFileRule .file args
    | .str "directory" => some <$> files <$> readFileRule .directory args
    | .str "choice" => do
      let options ← withDefault (listOf text) args "options" []
      pure (some (choice options))
    | .str "multiple-choice" => do
      let options ← withDefault (listOf text) args "options" []
      let delimiter ← withDefault text args "delimiter" ","
      let minimum ← withDefault integer args "minimum" 0
      let maximum ← withDefault integer args "maximum" 999
      pure (some (multipleChoice options delimiter minimum maximum))
    | .str "warnings" => do
      let negation ← withDefault text args "prefix" "no-"
      pure (some (warnings negation))
    | .str "custom" => do
      let command ← required text args "command"
      pure (some (custom command))
    | k => throw (.unknownValidator k)
  | _ => throw .misshapen

end ValidatorModel

def FlagHelp.read (v : Value) : Except ModelError FlagHelp := do
  let args ← arguments v
  pure {
    flag := ← required text args "flag"
    description := ← required text args "description"
    help := ← withDefault text args "help" "" }

def Flag.read (v : Value) : Except ModelError Flag := do
  let args ← arguments v
  pure {
    category := ← required text args "category"
    regexps := ← withDefault (listOf text) args "regexps" []
    captureGroups := ← withDefault (listOf text) args "capture_groups" []
    validator := ← optional readValidatorSettings args "validator"
    help := ← withDefault (listOf FlagHelp.read) args "help" [] }

def Flag.validatorModel (f : Flag) : Except ModelError (Option ValidatorModel) :=
  match f.validator with
  | none => pure none
  | some v => ValidatorModel.read? v

/-- The arguments of an entry given as a dictionary, which may not name itself. -/
def entryArguments (es : List (Value × Value)) : Except ModelError (Table Value) := do
  let args ← es.foldlM (fun (t : Table Value) e =>
    match e.1 with
    | .str k => pure (t.insert k e.2)
    | _ => throw .misshapen) []
  if args.contains "name" then throw .misshapen
  pure args

/-- Colours of a category, from a dictionary by group, or a list by position; any other
value gives no colours. -/
def readColors : Value → Except ModelError (Table String)
  | .null => pure []
  | v@(.dict _) => table text v
  | .list xs => do
    let cs ← xs.mapM text
    pure (Table.ofEntries ((List.range cs.length).map toString |>.zip cs))
  | _ => pure []

def Category.readEntry (name : String) : Value → Except ModelError Category
  | .dict es => do
    let args ← entryArguments es
    let colors ← match args.find? "colors" with
      | none => pure []
      | some v => readColors v
    pure ⟨name, colors⟩
  | .str s => pure ⟨name, [("0", s)]⟩
  | v => do pure ⟨name, ← readColors v⟩

/-- A category map named `name`, from its entry, if it is a list or a dictionary. -/
def CategoryMap.readEntry? (name : String) : Value → Except ModelError (Option CategoryMap)
  | v@(.list _) => do pure (some ⟨name, ← listOf text v⟩)
  | .dict es => do
    let args ← entryArguments es
    pure (some ⟨name, ← withDefault (listOf text) args "categories" []⟩)
  | _ => pure none

/-- A theme named `name`, from its entry, if it is a dictionary. -/
def Theme.readEntry? (name : String) : Value → Except ModelError (Option Theme)
  | .dict es => do
    let args ← entryArguments es
    pure (some {
      name := name
      defaultColor := ← withDefault text args "default" "white"
      categories := ← withDefault (table text) args "categories" [] })
  | _ => pure none

def ProgramSettings.read (v : Value) : Except ModelError ProgramSettings := do
  let args ← arguments v
  pure { defaultValidator := ← optional readValidatorSettings args "default_validator" }

/-- A program named `name`, from its entry, if it is a dictionary. -/
def Program.readEntry? (name : String) : Value → Except ModelError (Option Program)
  | .dict es => do
    let args ← entryArguments es
    pure (some {
      name := name
      aliases := ← withDefault (listOf text) args "aliases" []
      flags := ← withDefault (listOf Flag.read) args "flags" []
      settings := ← optional ProgramSettings.read args "config" })
  | _ => pure none

def Settings.read (v : Value) : Except ModelError Settings := do
  let args ← arguments v
  pure {
    color := ← withDefault switch args "color" true
    defaultValidator := ← optional readValidatorSettings args "default_validator" }

/-- A named section: a dictionary with text keys, each entry read by `f` and filed under its
key in small letters, or left out when `f` gives nothing. -/
def readSection {α : Type} (f : String → Value → Except ModelError (Option α)) :
    Option Value → Except ModelError (Table α)
  | none => pure []
  | some (.dict es) =>
    es.foldlM (fun (t : Table α) e =>
      match e.1 with
      | .str k => do
        match ← f k e.2 with
        | some x => pure (t.insert (Text.lowerString k) x)
        | none => pure t
      | _ => throw .misshapen) []
  | some _ => throw .misshapen

def Config.read (data : Value) : Except ModelError Config := do
  let args ← match data with
    | .dict es => es.foldlM (fun (t : Table Value) e =>
        match e.1 with
        | .str k => pure (t.insert k e.2)
        | _ => throw .misshapen) []
    | _ => throw .misshapen
  pure {
    settings := ← withDefault Settings.read args "config" {}
    categories := ← readSection (fun k v => some <$> Category.readEntry k v) (args.find? "categories")
    categoryMaps := ← readSection CategoryMap.readEntry? (args.find? "category_maps")
    themes := ← readSection Theme.readEntry? (args.find? "themes")
    flags := ← withDefault (listOf Flag.read) args "flags" []
    programs := ← readSection Program.readEntry? (args.find? "programs")
    keybindings := ← withDefault (table (table text)) args "keybindings" []
    aliases := ← withDefault (table text) args "aliases" [] }

end FlagLine
