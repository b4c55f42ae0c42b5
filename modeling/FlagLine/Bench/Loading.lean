import FlagLine.Bench.World
import FlagLine.Data.Merge
import FlagLine.Cli.Run
/-!
# The loading and command-line workloads

The loading workload merges a dictionary of numbered keys with one more key and back
again, builds two small merges from the value of the first numbered key, which a size of
zero does not have, and loads configurations from files: a main file alone, with a
drop-in directory of two files, with one of programs, an empty file, and no files.

The command-line workload runs the command line in a world of its own with no line, a
configuration that does not load, lines printed or not, colours off, a theme, an editor
that is interrupted or fails, a configuration that loads, and an argument that stops the
reading of arguments; last it reads the words after `--`.
-/

namespace FlagLine.Bench

open Fingerprint

/-! ## Loading -/

def loadingDir : List String := benchRoot ++ ["conf"]

def loadingTree : FileTree :=
  let d := loadingDir
  { entries := withParents
      [fileAt (d ++ ["config.yaml"]) "flags:\n  - category: Includes\n    regexps: ['-I(.*)']\n",
       fileAt (d ++ ["conf.d", "10-libraries.yaml"]) "flags:\n  - category: Libraries\n    regexps: ['-L(.*)']\n",
       fileAt (d ++ ["conf.d", "20-warnings.yml"]) "flags:\n  - category: Warnings\n    regexps: ['-W(.*)']\n",
       fileAt (d ++ ["tools.d", "tool.yaml"]) "programs:\n  tool:\n    aliases: [t]\n",
       fileAt (d ++ ["empty.yaml"]) ""] }

def loadedFrom (main dropins : String) : Config :=
  let inDir (f : String) : String := FileTree.render loadingDir ++ "/" ++ f
  (Config.load loadingTree loadingDir (inDir main) (inDir dropins)).toOption.getD {}

def dataOf (es : List (String × Value)) : List (Value × Value) := es.map (fun e => (.str e.1, e.2))

/-- The loading workload at a number of keys; without keys there is no first key to read. -/
def loadingRun (n : Nat) : Except Failure RunResult := do
  let numbered := dataOf ((List.range n).map (fun (i : Nat) => ("k" ++ toString i, .int i)))
  let merged := deepMerge numbered (dataOf [("extra", .bool true)])
  let first ← match Value.lookup (.str "k0") merged with
    | some v => pure v
    | none => throw (.missingKey "k0")
  let mixed := deepMerge
    (dataOf [("a", .int 0), ("b", .list [.int 0]), ("c", .dict (dataOf [("x", first)]))])
    (dataOf [("a", .int 1), ("b", .list [.int 1]), ("c", .dict (dataOf [("y", first)])), ("d", first)])
  let replaced := deepMerge (dataOf [("a", .int 1)]) (dataOf [("a", .dict (dataOf [("b", .int 2)]))])
  pure { result := list ([count merged.length, count (deepMerge merged numbered).length, ofData (.dict mixed),
     ofData (.dict replaced), count (loadedFrom "config.yaml" "none.d").flags.length,
     count (loadedFrom "config.yaml" "none.d").programs.length,
     count (loadedFrom "config.yaml" "tools.d").programs.length,
     count (loadedFrom "missing.yaml" "none.d").flags.length,
     count (loadedFrom "config.yaml" "conf.d").flags.length,
     count (loadedFrom "empty.yaml" "none.d").categories.length]) }

def loadingWorkload : Workload :=
  Workload.ofPure "bench_config_loader" "n_keys" [300, 1200, 4000] 400 loadingRun

/-! ## The command line -/

/-- The world of the command-line workload: a home without configuration, a
configuration that loads and one that does not. -/
def commandLineHost : Host :=
  let d := benchRoot ++ ["cli"]
  hostOf [directoryAt (benchRoot ++ ["home"]),
    fileAt (d ++ ["good.yaml"]) "flags:\n  - category: Includes\n    regexps: ['-I(.*)']\n",
    fileAt (d ++ ["bad.yaml"]) "flags: [\n"] d benchBin noPrograms
  |> fun h => { h with env := h.env.insert "HOME" (FileTree.render (benchRoot ++ ["home"])) }

def exitCode (r : Cli.Report) : Nat :=
  match r.finish with
  | .returned c => c
  | .exited c => c

def commandLineRun (_ : Nat) : Datum :=
  let h := commandLineHost
  let edited (req : Cli.EditRequest) : Cli.EditResult := .edited req.commandLine
  let code (args : List String) (edit : Cli.EditRequest → Cli.EditResult) : Datum :=
    count (exitCode (Cli.run h args edit))
  let words := match Cli.parse ["--", "clang", "-Wall"] with
    | .options o => o.command
    | _ => []
  list [code [] edited, code ["--config", "bad.yaml", "--", "gcc"] edited,
    code ["--", "gcc", "-O2"] edited, code ["-p", "--", "gcc", "-O2"] edited,
    code ["--no-color", "gcc"] edited, code ["-t", "dark", "gcc"] edited,
    code ["gcc"] (fun _ => .interrupted), code ["gcc"] (fun _ => .failed "editor failed"),
    code ["--config", "good.yaml", "gcc"] edited,
    tuple [code ["--granularity", "x", "gcc"] edited, texts words]]

def commandLineWorkload : Workload :=
  Workload.ofTotal "bench_cli_main" "n_tokens" [100, 300, 1200] 300 commandLineRun

end FlagLine.Bench
