import FlagLine.Fingerprint.Walk
import FlagLine.Data.Table
/-!
# Benchmark workloads

The library carries a benchmark suite: named workloads, each sized by one parameter, with
a default size and a list of sizes it is usually run at. A size builds the workload's
input; a run feeds that input through one part of the library and returns what the
library computed as a `Datum`, so that one value can be both shown and fingerprinted, and
a change of behaviour shows as a change of result.

Runs are pure but for one piece of state: commands that a run registers stay registered
for the runs after it, which the `Registry` carries. A run also reports the invalid flag
patterns that compiling its configurations met.
-/

namespace FlagLine.Bench

open Fingerprint

/-- Commands registered by earlier runs beyond the built-in ones, in order of
registration, each with the message that running it fails with. -/
structure Registry where
  added : Table String := []
  deriving Inhabited

def Registry.register (r : Registry) (name message : String) : Registry :=
  { r with added := r.added.insert name message }

/-- Why a run failed: it looked up a key that its sized input does not hold. -/
inductive Failure where
  | missingKey (key : String)
  deriving Inhabited

/-- What a run returns: its result and the invalid flag patterns met on the way. -/
structure RunResult where
  result : Datum
  warnings : List String := []
  deriving Inhabited

/-- A workload: its name, the name of its size parameter, its usual sizes, its default
size, and its run at a size given the commands registered so far. -/
structure Workload where
  name : String
  parameter : String
  sizes : List Nat
  defaultSize : Nat
  run : Nat → Registry → Except Failure (RunResult × Registry)

def Workload.ofPure (name parameter : String) (sizes : List Nat) (defaultSize : Nat)
    (f : Nat → Except Failure RunResult) : Workload :=
  { name, parameter, sizes, defaultSize
    run := fun n r => do pure (← f n, r) }

def Workload.ofTotal (name parameter : String) (sizes : List Nat) (defaultSize : Nat)
    (f : Nat → Datum) : Workload :=
  Workload.ofPure name parameter sizes defaultSize (fun n => pure { result := f n })

/-! ## Building results -/

def list (xs : List Datum) : Datum := .seq false xs

def tuple (xs : List Datum) : Datum := .seq true xs

def texts (xs : List String) : Datum := list (xs.map .text)

def count (n : Nat) : Datum := .int n

def textOr : Option String → Datum
  | some s => .text s
  | none => .none

def table (es : List (String × Datum)) : Datum := .dict (es.map (fun e => (.text e.1, e.2)))

mutual

def ofData : Value → Datum
  | .null => .none
  | .bool b => .bool b
  | .int n => .int n
  | .float x => .float x.toBits
  | .str s => .text s
  | .list xs => .seq false (ofDataList xs)
  | .dict es => .dict (ofDataEntries es)

def ofDataList : List Value → List Datum
  | [] => []
  | x :: xs => ofData x :: ofDataList xs

def ofDataEntries : List (Value × Value) → List (Datum × Datum)
  | [] => []
  | (k, v) :: es => (ofData k, ofData v) :: ofDataEntries es

end

/-- How many whole copies of a block of `block` items a size asks for, and at least one. -/
def copies (size block : Nat) : Nat := max 1 (size / block)

def cycleAt (xs : List α) [Inhabited α] (i : Nat) : α := xs.getD (i % xs.length) default

def cycleTake (xs : List α) [Inhabited α] (n : Nat) : List α := (List.range n).map (cycleAt xs)

end FlagLine.Bench
