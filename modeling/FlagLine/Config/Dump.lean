import FlagLine.Config.Schema
/-!
# Configuration as data

Every model of the configuration written back as a dictionary with all its fields, in
the order the model declares them, defaults filled in. Reading the written form gives the
model back.
-/

namespace FlagLine

def Table.textsToData (t : Table String) : Value := Value.ofPairs (t.map (fun e => (e.1, .str e.2)))

def Value.ofOption : Option Value → Value
  | some v => v
  | none => .null

def FlagHelp.toData (h : FlagHelp) : Value :=
  .ofPairs [("flag", .str h.flag), ("description", .str h.description), ("help", .str h.help)]

def Flag.toData (f : Flag) : Value :=
  .ofPairs [("category", .str f.category), ("regexps", .ofStrings f.regexps),
    ("capture_groups", .ofStrings f.captureGroups), ("validator", .ofOption f.validator),
    ("help", .list (f.help.map FlagHelp.toData))]

def Category.toData (c : Category) : Value :=
  .ofPairs [("name", .str c.name), ("colors", c.colors.textsToData)]

def CategoryMap.toData (m : CategoryMap) : Value :=
  .ofPairs [("name", .str m.name), ("categories", .ofStrings m.categories)]

def Theme.toData (t : Theme) : Value :=
  .ofPairs [("name", .str t.name), ("default", .str t.defaultColor),
    ("categories", t.categories.textsToData)]

def ProgramSettings.toData (s : ProgramSettings) : Value :=
  .ofPairs [("default_validator", .ofOption s.defaultValidator)]

def Program.toData (p : Program) : Value :=
  .ofPairs [("name", .str p.name), ("aliases", .ofStrings p.aliases),
    ("flags", .list (p.flags.map Flag.toData)),
    ("config", match p.settings with
      | some s => s.toData
      | none => .null)]

def Settings.toData (s : Settings) : Value :=
  .ofPairs [("color", .bool s.color), ("default_validator", .ofOption s.defaultValidator)]

/-- A table as a dictionary, each value written by `f`. -/
def Table.toData {α : Type} (f : α → Value) (t : Table α) : Value :=
  Value.ofPairs (t.map (fun e => (e.1, f e.2)))

def Config.toData (c : Config) : Value :=
  .ofPairs [("config", c.settings.toData), ("categories", c.categories.toData Category.toData),
    ("category_maps", c.categoryMaps.toData CategoryMap.toData),
    ("themes", c.themes.toData Theme.toData), ("flags", .list (c.flags.map Flag.toData)),
    ("programs", c.programs.toData Program.toData),
    ("keybindings", c.keybindings.toData Table.textsToData),
    ("aliases", c.aliases.textsToData)]

def FileKind.name : FileKind → String
  | .file => "file"
  | .directory => "directory"

def ValidatorModel.toData : ValidatorModel → Value
  | .files r => .ofPairs [("type", .str r.kind.name), ("extensions", .ofStrings r.extensions),
      ("multiple", .bool r.multiple), ("separator", .str r.separator), ("sort", .str r.sort),
      ("include", .ofStrings r.includes), ("exclude", .ofStrings r.excludes),
      ("startup_directory", .str r.startupDirectory), ("change", .bool r.change)]
  | .choice options => .ofPairs [("type", .str "choice"), ("options", .ofStrings options)]
  | .multipleChoice options delimiter minimum maximum =>
    .ofPairs [("type", .str "multiple-choice"), ("options", .ofStrings options),
      ("delimiter", .str delimiter), ("minimum", .int minimum), ("maximum", .int maximum)]
  | .warnings negation => .ofPairs [("type", .str "warnings"), ("prefix", .str negation)]
  | .custom command => .ofPairs [("type", .str "custom"), ("command", .str command)]

end FlagLine
