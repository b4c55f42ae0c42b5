import FlagLine.Bench.World
import FlagLine.Config.Load
import FlagLine.Editor.Session
/-!
# The completion and editor workloads

The completion workload completes lines in a project of sources numbered from zero
with three digits and two directories, with three programs on the search path and a file there that is not
executable: program names in the first word, with and without matches; values in later
words from the default validator, in the blanks and after them, and from a directory
validator in the last capture of a flag. It then names the validators that settings of
each kind build, and completes the blanks of a line whose default validator is of a kind
not known.

The editor workload edits a line of flags of four categories, those of one category
twice as many as the others. It runs every command but the external editor on the line
in an application, lists the duplicates, runs the duplicate commands in turn, and
measures what they leave: the current group, the words shown as duplicates, the styles,
and the words left when the first group keeps its first word. It looks commands up by
abbreviation, offers a completion, parses command strings, and registers a command that
fails, which stays registered for the runs after it.
-/

namespace FlagLine.Bench

open Fingerprint

/-! ## Completion -/

def projectDir : List String := benchRoot ++ ["project"]

def threeDigits (i : Nat) : String :=
  let s := toString i
  "".pushn '0' (3 - s.length) ++ s

/-- The world of the completion workload: sources numbered with three digits, two
directories, and the programs of the search path. -/
def completerHost (n : Nat) : Host :=
  let d := projectDir
  hostOf ((List.range n).map (fun (i : Nat) => fileAt (d ++ ["src" ++ threeDigits i ++ ".c"])) ++
      [directoryAt (d ++ ["include"]), directoryAt (d ++ ["lib"]),
       fileAt (benchBin ++ ["gcc-12"]) "" true, fileAt (benchBin ++ ["gdb"]) "" true,
       fileAt (benchBin ++ ["clangd"]) "" true, fileAt (benchBin ++ ["gnotes"]) ""])
    d benchBin noPrograms

def completerConfigText : String :=
  "\n".intercalate
  ["flags:",
   "  - category: Includes", "    regexps: ['-(I)(.*)']", "    validator:", "      type: directory",
   "  - category: Optimization", "    regexps: ['-(O)(.*)']", ""]

def completedLines : List String :=
  ["g", "cl", "zz", "gcc -Dzz", "gcc ", "gcc -Ii", "gcc src0", "gcc -O2 ", "", "gcc -O2 nomatch"]

/-- Validator settings of each kind, then no settings and settings of a kind not known. -/
def completerSettings : List Value :=
  [.dict [(.str "type", .str "file")], .dict [(.str "type", .str "directory")],
   .dict [(.str "type", .str "choice"), (.str "options", Value.ofStrings ["a", "b"])],
   .dict [(.str "type", .str "multiple-choice"), (.str "options", Value.ofStrings ["a", "b"])],
   .dict [(.str "type", .str "warnings")],
   .dict [(.str "type", .str "custom"), (.str "command", .str "/bin/true")],
   .null, .dict [(.str "type", .str "bogus")]]

def offersFor (c : Config) (m : Matcher) (h : Host) (line : String) : Option (List String) :=
  (Completer.complete c m h line line.length).toOption.map (fun o => o.completions.map (·.text))

def completerRun (n : Nat) : Datum :=
  let c := (Config.ofYaml completerConfigText).toOption.getD {}
  let h := completerHost n
  match Matcher.make c (some "gcc") with
  | .error _ => .none
  | .ok m =>
    let unknownDefault := { c with settings := { c.settings with
      defaultValidator := some (.dict [(.str "type", .str "bogus")]) } }
    list (completedLines.map (fun l => match offersFor c m h l with
        | some ts => count ts.length
        | none => .none) ++
      completerSettings.map (fun v => .text (((Completer.validatorOf v).map Validator.typeName).getD "NoneType")) ++
      [match offersFor unknownDefault m h "gcc " with
       | some ts => texts ts
       | none => .none])

def completerWorkload : Workload :=
  Workload.ofTotal "bench_completer" "n_files" [10, 40, 160] 40 completerRun

/-! ## Editing -/

/-- The configuration of the editor workload, as YAML: four categories and a theme that
colours nothing, not even the default. -/
def editingConfigText : String :=
  "\n".intercalate
  ["flags:",
   "  - category: Includes", "    regexps: ['-I(.*)']",
   "  - category: Defines", "    regexps: ['-D(\\w+)']",
   "  - category: Warnings", "    regexps: ['-W(.*)']",
   "  - category: Optimization", "    regexps: ['-O(.*)']",
   "themes:", "  plain:", "    default: ''", ""]

/-- The flag at a position of the editor workload's line: two of every five are include
directories. -/
def editedFlag (i : Nat) : String :=
  match i % 5 with
  | 0 => "-I/inc" ++ toString i
  | 1 => "-DV" ++ toString i
  | 2 => "-I/opt" ++ toString i
  | 3 => "-Wall"
  | _ => "-O2"

def editedLine (n : Nat) : String := " ".intercalate ("gcc" :: (List.range n).map editedFlag)

def duplicateScript : List String :=
  ["show-duplicates", "duplicate-next", "duplicate-prev", "duplicate-next-group",
   "duplicate-previous-group", "duplicate-select", "duplicate-deselect", "duplicate-all",
   "duplicate-none", "duplicates-keep", "show-duplicates", "duplicates-delete", "duplicates-first",
   "duplicates-exit", "lights-off", "lights-off", "quit"]

def failingMessage : String := "boom"

/-- Runs commands without arguments in turn, keeping each outcome; a command that cannot
run stops the rest. -/
def runAll (r : Registry) (e : Editor) : List String → List (Option Commands.Outcome) × Editor
  | [] => ([], e)
  | c :: cs =>
    match e.executeAmong r.added c [] with
    | .ok (o, next) =>
      let (os, last) := runAll r next cs
      (some o :: os, last)
    | .error _ => ((c :: cs).map (fun _ => none), e)

def lookupKind : Except String (Option String) → String
  | .ok (some _) => "found"
  | .ok none => "unknown"
  | .error _ => "ambiguous"

def standsFor (registered : List String) (name command : String) : Bool :=
  (Commands.lookupIn registered name).toOption == some (some command)

def parsedDatum (command : String) : Datum :=
  match Commands.parseCommand command with
  | .ok (name, args) => tuple [.text name, texts args]
  | .error _ => .none

def editingMeasures (r : Registry) (e : Editor) : List Datum :=
  let after (cs : List String) : Editor := (runAll r e cs).2
  let matched := match e.matchResults with
    | .ok (rs, _) => count (rs.filter (·.flag.isSome)).length
    | .error _ => .none
  let shown := after ["show-duplicates", "duplicate-next-group"]
  let lit := after ["lights-off"]
  let kept := after ["show-duplicates", "duplicates-first"]
  [matched, count ((shown.duplicates.map (·.currentGroup)).getD 0),
   count ((shown.duplicates.map (fun d => d.view.highlighted.length)).getD 0),
   count e.lexer.styles.length, count lit.lexer.styles.length, count (kept.tokens.length - 1)]

def editingRun (n : Nat) (r : Registry) : RunResult × Registry :=
  let c := (Config.ofYaml editingConfigText).toOption.getD {}
  let h := hostOf [fileAt (benchRoot ++ ["editing", "src.c"])] (benchRoot ++ ["editing"]) benchBin noPrograms
  let registered := Commands.names ++ r.added.keys
  let listed := (registered.mergeSort (fun a b => decide (a ≤ b))).filter (· != "editor")
  match Editor.make c (some "plain") (editedLine n) h, Editor.make c (some "plain") "gcc s" h with
  | .ok e, .ok short =>
    let e := { e with application := some {} }
    let runs := listed.map (fun name =>
      match e.executeAmong r.added name [] with
      | .ok (o, _) => tuple [.text name, .bool o.success, .bool o.exitEditor]
      | .error _ => .none)
    let script := (runAll r e duplicateScript).1.map (fun o => .bool ((o.map (·.success)).getD false))
    let start := match short.complete with
      | .ok o => match o.completions.head? with
        | some cpl => .int cpl.startPosition
        | none => .none
      | .error _ => .none
    let unknown := match e.executeAmong r.added "no-such-command" [] with
      | .ok (o, _) => .bool o.success
      | .error _ => .none
    let r' := r.register "_boom" failingMessage
    let boom := match e.executeAmong r'.added "_boom" [] with
      | .ok (o, _) => [.bool (o.message == failingMessage), .bool o.success]
      | .error _ => [.none, .none]
    let pieces := match (after r e ["lights-off"]).styled with
      | .ok (s, _) => count s.length
      | .error _ => .none
    ({ result := list ([.bool (registered.all (fun m => standsFor registered m m))] ++
        runs ++ script ++ editingMeasures r e ++
        [.bool (standsFor registered "mo-c-l" "move-char-left"),
         textOr ((Commands.lookupIn registered "nothing").toOption.bind id), start,
         .bool (standsFor registered "q" "quit"),
         .text (lookupKind (Commands.lookupIn registered "d")), unknown,
         parsedDatum "quit -p -y", parsedDatum "",
         .bool ((Commands.names ++ r'.added.keys).contains "_boom")] ++ boom ++
        [pieces, count e.tokens.length]) }, r')
  | _, _ => ({ result := .none }, r)
where
  after (r : Registry) (e : Editor) (cs : List String) : Editor := (runAll r e cs).2

def editingWorkload : Workload :=
  { name := "bench_editor_commands", parameter := "n_flags", sizes := [20, 60, 180], defaultSize := 60
    run := fun n r => pure (editingRun n r) }

end FlagLine.Bench
