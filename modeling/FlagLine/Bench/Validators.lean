import FlagLine.Bench.World
import FlagLine.Validator.Answer
/-!
# The validator workloads

Three workloads ask validators questions whose answers depend on their size.

The choice workload offers, checks and cycles a single choice of numbered options, a
multiple choice of the same options after five options with placement marks, with at
most as many selections as options, and a warnings validator.

The file workload lists, filters and checks a directory of numbered files with four
extensions in turn, beside one subdirectory holding one file.

The command workload asks programs for completions: one prints a line per unit of size;
others refuse with a message, fail silently, stall past a short time limit, break off,
or do not exist.
-/

namespace FlagLine.Bench

open Fingerprint

def offered (v : Validator) (h : Host) (ctx : Table Value) (value : String) : List String :=
  match v.completions h ctx value with
  | .ok r => r.completions
  | .error _ => []

def offerMessage (v : Validator) (h : Host) (ctx : Table Value) (value : String) : String :=
  match v.completions h ctx value with
  | .ok r => r.message
  | .error e => e.message

def accepts (v : Validator) (h : Host) (ctx : Table Value) (value : String) : Bool :=
  match v.check h ctx value with
  | .ok r => r.valid
  | .error _ => false

def cycled (forward : Bool) (v : Validator) (h : Host) (ctx : Table Value) (value : String) : String :=
  match (if forward then v.cycleNext h ctx value else v.cyclePrev h ctx value) with
  | .ok s => s
  | .error _ => value

def bareHost : Host := hostOf [directoryAt benchRoot] benchRoot benchBin noPrograms

/-! ## Choices -/

def optionNames (n : Nat) : List String := (List.range n).map (fun i => "opt" ++ toString i)

def placedOptions : List String := ["$first", "mid1", "mid2", "last$", "$only$"]

def choiceRun (n : Nat) : Datum :=
  let h := bareHost
  let opts := optionNames n
  let single := Validator.choice opts
  let empty := Validator.choice []
  let multi := Validator.multipleChoice (placedOptions ++ opts) "," 0 n
  let warn := Validator.warnings "no-"
  let toggled (value o : String) : String := (Validator.toggleOption "," value o).toOption.getD value
  let askCount (v : Validator) (value : String) : Datum := count (offered v h [] value).length
  let ok (v : Validator) (value : String) : Datum := .bool (accepts v h [] value)
  list ([askCount single "", askCount single "OPT", ok single "opt0", ok single "OPT1", ok single "nope",
    .text (cycled true single h [] ""), .text (cycled false single h [] "opt0"),
    .text (cycled true empty h [] "x"), .text (cycled false empty h [] "x"),
    askCount multi "", askCount multi (",".intercalate opts),
    askCount multi (",".intercalate (opts.take (n / 2))),
    ok multi "first,mid1", ok multi "mid1,first", ok multi "first,last"] ++
    (["only,mid1", "last,mid1", "bogus", ",".intercalate (opts ++ ["mid1"]), "first,first",
      "mid1,,mid2", "mid1;mid2"].map (ok multi)) ++
    [.text (cycled true multi h [] "first"), .text (toggled "first,mid1" "mid1"),
     .text (toggled "" "first"), .text (toggled "first" "mid2"), .text (toggled "first,mid2" "first"),
     .text (Validator.toggleWarning "no-" "unused-variable"),
     .text (Validator.toggleWarning "no-" "no-unused-variable"),
     .bool (Validator.isDisabled "no-" "no-x"), .text (Validator.baseName "no-" "no-x"),
     .text (Validator.baseName "no-" "x"), .bool (Validator.isDisabled "no-" "x"),
     ok warn "x", texts (offered warn h [] "x"), .text (cycled true warn h [] "x"),
     .text (cycled false warn h [] "no-x")])

def choiceWorkload : Workload :=
  Workload.ofTotal "bench_choice_validators" "n_options" [60, 200, 800] 200 choiceRun

/-! ## Files -/

def fileExtensions : List String := [".c", ".h", ".cpp", ".txt"]

def numberedFiles (n : Nat) : List String :=
  (List.range n).map (fun i => "file" ++ toString i ++ cycleAt fileExtensions i)

def filesRun (n : Nat) : Datum :=
  let dir := benchRoot ++ ["files"]
  let h := hostOf ((numberedFiles n).map (fun f => fileAt (dir ++ [f]) "x") ++
    [fileAt (dir ++ ["sub", "inner.c"]) "x"]) dir benchBin noPrograms
  let ctx : Table Value := [("cwd", .str (FileTree.render dir))]
  let plain := Validator.files {}
  let sources := Validator.files { extensions := [".c", ".h", ".cpp"] }
  let cOnly := Validator.files { extensions := [".c"] }
  let headers := Validator.files { extensions := [".h"] }
  let dirs := Validator.files { kind := .directory }
  let several := Validator.files { multiple := true }
  let askCount (v : Validator) (value : String) : Datum := count (offered v h ctx value).length
  let ok (v : Validator) (value : String) : Datum := .bool (accepts v h ctx value)
  list [askCount plain "file", askCount plain "", askCount sources "file", askCount plain "zzz",
    askCount plain "nodir/x", askCount cOnly "file", askCount dirs "", askCount plain "sub/",
    ok plain "file0.c", ok plain "missing.c", ok headers "file0.c", ok dirs "file0.c", ok dirs "sub",
    ok dirs "nodir", ok several "file0.c,missing", .text (cycled true plain h ctx "zzz"),
    .text (cycled false plain h ctx "zzz")]

def filesWorkload : Workload :=
  Workload.ofTotal "bench_file_validator" "n_files" [60, 200, 800] 200 filesRun

/-! ## Programs -/

def scriptedPrograms (n : Nat) (inv : Invocation) (files : FileTree) :
    Except Errno (Outcome × FileTree) :=
  match inv.program.getLast? with
  | some "lines" =>
    .ok (.exited 0 (String.join ((List.range n).map (fun i => "line" ++ toString i ++ "\n"))) "", files)
  | some "refuses" => .ok (.exited 1 "" "nope\n", files)
  | some "fails" => .ok (.exited 1 "" "", files)
  | some "stalls" => .ok (.stalled, files)
  | some "crashes" => .ok (.failed "boom", files)
  | _ => .error .execFormat

def commandRun (n : Nat) : Datum :=
  let programs := ["lines", "refuses", "fails", "stalls", "crashes"]
  let h := hostOf (programs.map (fun p => fileAt (benchBin ++ [p]) "" true)) benchRoot benchBin
    (scriptedPrograms n)
  let command (name : String) : Validator := .custom name (.float 5.0)
  let lines := command "lines"
  let blank := command ""
  list [count (offered lines h [] "").length, .bool (accepts lines h [] "line0"),
    .bool (accepts lines h [] "zzz"), .text (offerMessage (command "refuses") h [] ""),
    .text (offerMessage (command "fails") h [] ""),
    .text (offerMessage (.custom "stalls" (.float 0.01)) h [] ""),
    .text (offerMessage (command "missing") h [] ""), .text (offerMessage (command "crashes") h [] ""),
    texts (offered blank h [] ""), .bool (accepts blank h [] "x")]

def commandWorkload : Workload :=
  Workload.ofTotal "bench_custom_validator" "n_lines" [80, 300, 1500] 300 commandRun

end FlagLine.Bench
