import FlagLine.Bench.Colors
import FlagLine.Bench.Validators
import FlagLine.Bench.Programs
import FlagLine.Bench.Loading
import FlagLine.Bench.Lines
import FlagLine.Bench.Keys
import FlagLine.Bench.Editing
/-!
# The benchmark suite

The workloads by name, and the three ways of using them. A request runs one workload at
the sizes its parameters give, once or repeatedly, and answers every run's result. A
self-check runs each named workload at its default size twice and at each of its usual
sizes, all in one registry, and answers the fingerprints of the results and of the sizes;
a check of positive control runs only the first default run. A timing run answers, per
name, whether the workload ran. Answers are written as data: tuples as lists, doubles as
their text under `float`, and objects known only by their type as that type's name.
-/

namespace FlagLine.Bench

open Fingerprint

def workloads : List Workload :=
  [choiceWorkload, commandLineWorkload, completerWorkload, loadingWorkload, schemaWorkload,
   commandWorkload, editingWorkload, filesWorkload, keysWorkload, styleWorkload, matchWorkload,
   colorsWorkload, programsWorkload, wordsWorkload]

def find? (name : String) : Option Workload := workloads.find? (·.name == name)

def names : List String := workloads.map (·.name)

/-- Why a request to run a workload is refused: a parameter the workload does not take. -/
inductive RequestError where
  | unknownParameter (name : String)
  | failed (f : Failure)

/-- The size that parameters give a workload: the last value given for its parameter,
else its default. -/
def sizeOf (w : Workload) (params : List (String × Nat)) : Except RequestError Nat :=
  params.foldlM (fun _ p =>
    if p.1 == w.parameter then pure p.2 else throw (.unknownParameter p.1)) w.defaultSize

def runTimes (w : Workload) (size : Nat) : Nat → Registry → Except Failure (List RunResult × Registry)
  | 0, r => pure ([], r)
  | k + 1, r => do
    let (o, r) ← w.run size r
    let (os, r) ← runTimes w size k r
    pure (o :: os, r)

/-- The answer to a request: one result per run and the invalid patterns met. -/
structure Runs where
  results : List Datum
  warnings : List String

/-- Runs a workload at the size its parameters give, `times` times, from an empty registry. -/
def request (w : Workload) (params : List (String × Nat)) (times : Nat) : Except RequestError Runs := do
  let size ← sizeOf w params
  match runTimes w size times {} with
  | .ok (os, _) => pure ⟨os.map (·.result), os.flatMap (·.warnings)⟩
  | .error f => throw (.failed f)

def suiteWarnings : List String :=
  let step (acc : List String × Registry) (w : Workload) :=
    match w.run w.defaultSize acc.2 with
    | .ok (o, r) => (acc.1 ++ o.warnings, r)
    | .error _ => acc
  (workloads.foldl step ([], {})).1

/-- The self-check of one workload: whether its result is a tuple, the fingerprints of its
default runs, of its runs at each usual size under the text `parameter=size`, and of the
sizes themselves. -/
structure Check where
  name : String
  tuple : Bool
  stable : List String
  bySize : List (String × String)
  sizeDigests : List String

def isTuple : Datum → Bool
  | .seq frozen _ => frozen
  | _ => false

def digestRun (w : Workload) (size : Nat) (r : Registry) : Except Failure (Datum × String × Registry) := do
  let (o, r) ← w.run size r
  pure (o.result, fingerprint o.result, r)

/-- Self-checks one workload from a registry; under positive control only the first default
run counts. -/
def checkOne (control : Bool) (w : Workload) (r : Registry) : Except Failure (Check × Registry) := do
  let (first, d1, r) ← digestRun w w.defaultSize r
  if control then
    pure (⟨w.name, isTuple first, [d1], [], []⟩, r)
  else
    let (_, d2, r) ← digestRun w w.defaultSize r
    let (bySize, r) ← w.sizes.foldlM (fun (acc : List (String × String) × Registry) s => do
      let (_, d, r) ← digestRun w s acc.2
      pure (acc.1 ++ [(w.parameter ++ "=" ++ toString s, d)], r)) ([], r)
    pure (⟨w.name, isTuple first, [d1, d2], bySize, w.sizes.map (fun (s : Nat) => fingerprint (.int s))⟩, r)

def selfCheck (control : Bool) (ws : List Workload) : Except Failure (List Check) := do
  let (cs, _) ← ws.foldlM (fun (acc : List Check × Registry) w => do
    let (c, r) ← checkOne control w acc.2
    pure (acc.1 ++ [c], r)) ([], {})
  pure cs

/-- Whether each named workload ran once at its default size, in one registry: `none` for
a name of no workload. -/
def timings (ns : List String) : List (String × Option Bool) :=
  let step (acc : List (String × Option Bool) × Registry) (n : String) :=
    match find? n with
    | none => (acc.1 ++ [(n, none)], acc.2)
    | some w =>
      match w.run w.defaultSize acc.2 with
      | .ok (_, r) => (acc.1 ++ [(n, some true)], r)
      | .error _ => (acc.1 ++ [(n, some false)], acc.2)
  (ns.foldl step ([], {})).1

/-! ## Answers as data -/

mutual

def datumData : Datum → Value
  | .none => .null
  | .bool b => .bool b
  | .int n => .int n
  | .float bits => Value.ofPairs [("float", .str (floatText Value.floatNotation (Float.ofBits bits)))]
  | .text s => .str s
  | .seq _ xs => .list (datumsData xs)
  | .dict es => .dict (entriesData es)
  | .named t _ => Value.ofPairs [("type", .str t)]
  | .printed t _ => Value.ofPairs [("type", .str t)]
  | .array _ _ _ => Value.ofPairs [("type", .str "ndarray")]
  | .complex _ _ => Value.ofPairs [("type", .str "complex")]
  | .bytes _ _ => Value.ofPairs [("type", .str "bytes")]
  | .set _ _ => Value.ofPairs [("type", .str "set")]

def datumsData : List Datum → List Value
  | [] => []
  | d :: ds => datumData d :: datumsData ds

def entriesData : List (Datum × Datum) → List (Value × Value)
  | [] => []
  | (k, v) :: es => (datumData k, datumData v) :: entriesData es

end

def sortedOnce (ws : List String) : List String := (ws.mergeSort (fun a b => decide (a ≤ b))).eraseDups

def withWarnings (ws : List String) (ps : List (String × Value)) : Value :=
  if ws.isEmpty then Value.ofPairs ps
  else Value.ofPairs (ps ++ [("warnings", Value.ofStrings (sortedOnce ws))])

def catalogueData : Value :=
  Value.ofPairs [("benches", Value.ofStrings names),
    ("params", Value.ofPairs (workloads.map (fun w =>
      (w.name, .list (w.sizes.map (fun (s : Nat) => Value.ofPairs [(w.parameter, .int s)]))))))]

def Runs.toData (r : Runs) : Value :=
  withWarnings r.warnings [("results", .list (r.results.map datumData))]

def suiteData : Value := withWarnings suiteWarnings [("benches", Value.ofStrings names)]

def checksData (cs : List Check) : Value :=
  Value.ofPairs [("semcheck", Value.ofPairs (cs.map (fun c =>
    (c.name, Value.ofPairs [("ret_type", .str (if c.tuple then "tuple" else "list")),
      ("fp_stable", Value.ofStrings c.stable),
      ("fp_by_param", Value.ofPairs (c.bySize.map (fun e => (e.1, .str e.2)))),
      ("param_fps", Value.ofStrings c.sizeDigests)]))))]

/-- Timings as data: each name's status, and the kind of error of those that failed. -/
def timingsData (ts : List (String × Option Bool)) : Value :=
  Value.ofPairs [("status", Value.ofPairs (ts.map (fun t =>
      (t.1, .str (if t.2 == some true then "ran" else "error"))))),
    ("errors", Value.ofPairs (ts.filterMap (fun t =>
      match t.2 with
      | some true => none
      | some false => some (t.1, .str "KeyError")
      | none => some (t.1, .str "AttributeError"))))]

end FlagLine.Bench
