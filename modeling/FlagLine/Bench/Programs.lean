import FlagLine.Bench.Basic
import FlagLine.Config.Load
import FlagLine.Config.Lookup
import FlagLine.Program.Detect
/-!
# The program and schema workloads

Both read one configuration: two themes, eleven global flags whose validators cover
every kind and none, `gcc` with an alias and one flag of its own, and `mytool` with a
literal and a glob alias.

The program workload detects the program of executable names in turn, built-in,
configured and unknown, and then splits sample command lines with and without launchers
into their four parts, lists the known program names, and looks names up among the
launchers, with one launcher added by name and alias, and among the configured programs.

The schema workload finds the configured program and the flags of executable names in
turn, then picks themes, reads validator settings of each kind, names the validators of
the global flags, and reads category colours from each shape they may take.
-/

namespace FlagLine.Bench

open Fingerprint

def programsConfigText : String :=
  "\n".intercalate
  ["themes:", "  default:", "    default: white", "  extra:", "    default: grey",
   "flags:",
   "  - category: Sources", "    regexps: ['.*\\.c']", "    validator:", "      type: file",
   "  - category: Includes", "    regexps: ['-I(.*)']", "    validator:", "      type: directory",
   "  - category: Libraries", "    regexps: ['-L(.*)']", "    validator: \x7b\x7d",
   "  - category: Warnings", "    regexps: ['-W(.*)']", "    validator:", "      type: warnings",
   "  - category: Optimization", "    regexps: ['-O(.*)']", "    validator:", "      type: choice",
   "      options: ['0', '1', '2', '3', 's']",
   "  - category: Standard", "    regexps: ['-std=(.*)']", "    validator:", "      type: choice",
   "      options: [c99, c11]",
   "  - category: Sanitizers", "    regexps: ['-fsanitize=(.*)']", "    validator:",
   "      type: multiple-choice", "      options: [address, undefined]",
   "  - category: Outputs", "    regexps: ['-o(.*)']", "    validator:", "      type: file",
   "  - category: Debug", "    regexps: ['-g']",
   "  - category: Defines", "    regexps: ['-D(.*)']",
   "  - category: Tools", "    regexps: ['--tool=(.*)']", "    validator:", "      type: custom",
   "      command: /bin/true",
   "programs:",
   "  gcc:", "    aliases: [cc]", "    flags:", "      - category: Architecture",
   "        regexps: ['-m(.*)']",
   "  mytool:", "    aliases: [mt, 'glob:mytool-*']", ""]

def programsConfig : Config := (Config.ofYaml programsConfigText).toOption.getD {}

/-! ## Programs -/

def detectedNames : List String :=
  ["gcc", "/usr/bin/gcc", "x86_64-linux-gnu-gcc", "clang++", "ld.lld", "llvm-ar", "python3", "as",
   "mytool", "mt", "/opt/tools/mytool", "never-heard-of-it", "gcc-13", "ccache"]

def sampleCommandLines : List String :=
  ["ccache -x gcc -O2 main.c", "scan-build -o out -enable-checker x clang -c a.c",
   "nice -n 5 g++ -O2 x.cpp", "env FOO=1 mytool --x", "", "plainfile", "ccache -x"]

/-- A launcher that the program workload adds beside the built-in ones, on a configuration
object of its own: its name, other names for it, and its flags that take the next word. The
schema has no launchers, so only this workload reaches the added ones. -/
structure Launcher where
  name : String
  aliases : List String := []
  flagsWithArgs : List String := []

/-- The launcher that a base name is: a built-in one, else the first added one that it
names or aliases, ignoring case. -/
def isLauncherAmong (added : List Launcher) (basename : String) : Option (String × List String) :=
  match isLauncher basename with
  | some l => some l
  | none =>
    let lower := Text.lowerString basename
    (added.find? (fun l => Text.lowerString l.name == lower ||
      l.aliases.any (fun a => Text.lowerString a == lower))).map (fun l => (l.name, l.flagsWithArgs))

def addedLaunchers : List Launcher := [{ name := "mylaunch", aliases := ["ml"] }]

def splitLine (c : Config) (line : String) : List Datum :=
  let tokens := tokenize line
  let parts := (splitCommandLine tokens c).toOption.getD {}
  let launcher := ((findProgram tokens c).toOption.bind id).bind (·.launcher)
  [table [("launcher", .text parts.launcher), ("launcherParameters", .text parts.launcherParameters),
     ("program", .text parts.program), ("programParameters", .text parts.programParameters)],
   .bool !parts.launcher.isEmpty, textOr (launcher.map (·.name))]

/-- A launcher found by name, as its name and flags that take the next word. -/
def launcherDatum : Option (String × List String) → Datum
  | some (n, fs) => tuple [.text n, texts fs]
  | none => .none

def programsRun (n : Nat) : Datum :=
  let c := programsConfig
  let detected := (cycleTake detectedNames n).map (fun e =>
    match detectProgram e c with
    | .ok m => tuple [.text m.canonical, .text m.source.name]
    | .error _ => .none)
  list (detected ++ sampleCommandLines.flatMap (splitLine c) ++
    [texts (programNames c), launcherDatum (isLauncherAmong addedLaunchers "mylaunch"),
     launcherDatum (isLauncherAmong addedLaunchers "ml"), launcherDatum (isLauncherAmong addedLaunchers "gcc"),
     textOr ((matchConfig "mt" c).toOption.bind id), textOr ((matchConfig "zzz" c).toOption.bind id)])

def programsWorkload : Workload :=
  Workload.ofTotal "bench_program_detection" "n_names" [100, 400, 1600] 400 programsRun

/-! ## Schema -/

def lookedUpNames : List String := ["gcc", "mytool", "mt", "unknown-tool", "/opt/bin/mytool", "cc"]

def sampleValidators : List Value :=
  [.dict [(.str "type", .str "file")], .dict [(.str "type", .str "directory")],
   .dict [(.str "type", .str "choice"), (.str "options", Value.ofStrings ["a"])],
   .dict [(.str "type", .str "multiple-choice")], .dict [(.str "type", .str "warnings")],
   .dict [(.str "type", .str "custom"), (.str "command", .str "x")], .dict [(.str "type", .str "bogus")]]

/-- The name of a checked validator's kind, of none, or the message of the error. -/
def modelName : Except ModelError (Option ValidatorModel) → String
  | .ok (some m) => m.typeName
  | .ok none => "NoneType"
  | .error e => e.message?.getD ""

def colorsDatum (t : Table String) : Datum := table (t.map (fun e => (e.1, .text e.2)))

def schemaRun (n : Nat) : Datum :=
  let c := programsConfig
  let looked := (cycleTake lookedUpNames n).flatMap (fun e =>
    [textOr (((c.programFor e).toOption.bind id).map (·.name)),
     count ((c.flagsFor e).toOption.getD []).length])
  let colors (v : Value) : Table String := (readColors v).toOption.getD []
  list (looked ++
    [.text (c.theme (some "extra")).name, .text (c.theme (some "nope")).name, .text (c.theme none).name,
     .text (modelName (ValidatorModel.read? .null))] ++
    sampleValidators.map (fun v => .text (modelName (ValidatorModel.read? v))) ++
    [.text (((colors (Value.ofStrings ["red"])).find? "0").getD "")] ++
    c.flags.map (fun f => .text (modelName f.validatorModel)) ++
    [colorsDatum (colors .null), colorsDatum (colors (.int 5)), colorsDatum (colors (Value.ofStrings ["red"])),
     colorsDatum (colors (.dict [(.str "a", .str "red")]))])

def schemaWorkload : Workload :=
  Workload.ofTotal "bench_config_schema" "n_lookups" [100, 400, 1600] 400 schemaRun

end FlagLine.Bench
