import FlagLine.Data.Value
import FlagLine.Data.Table
/-!
# Reading typed fields from configuration data

How a configuration field of each type accepts a value. A text field accepts a text, and
a number or switch written as its text. A switch accepts true and false, the numbers one
and zero, and the words yes, no, on, off, true, false, y, n, t and f and the digits 1 and 0
in any case. An integer field accepts integers, switches as one and zero, doubles cut
toward zero, and texts of a signed decimal integer with blanks around it and single
underscores between digits. A list field accepts only a list; a dictionary field accepts a
dictionary, or a list of key and value pairs, where a pair is a list of two or a text of
two characters.
-/

namespace FlagLine

/-- Why configuration data could not be read into a model. -/
inductive ModelError where
  /-- A field refused its value. -/
  | rejected
  /-- An infinite double stood where an integer was wanted. -/
  | overflow
  /-- A section had a shape the reader cannot walk: not a dictionary, a name that is not
  text, or a field given twice. -/
  | misshapen
  /-- A validator named a kind that does not exist. -/
  | unknownValidator (kind : Value)
  deriving Inhabited

/-- The message of a model error: only an unknown validator kind has one. -/
def ModelError.message? : ModelError → Option String
  | .unknownValidator k => some s!"Unknown validator type: {k.text}"
  | _ => none

namespace Field

def text : Value → Except ModelError String
  | .str s => pure s
  | .int n => pure (toString n)
  | .bool b => pure (if b then "True" else "False")
  | .float x => pure (floatText Value.floatNotation x)
  | _ => throw .rejected

/-- The words of a switch, in small letters, that mean true. -/
def trueWords : List String := ["1", "on", "t", "true", "y", "yes"]

/-- The words of a switch, in small letters, that mean false. -/
def falseWords : List String := ["0", "off", "f", "false", "n", "no"]

def switch : Value → Except ModelError Bool
  | .bool b => pure b
  | .int 1 => pure true
  | .int 0 => pure false
  | .float x => if x == 1 then pure true else if x == 0 then pure false else throw .rejected
  | .str s =>
    let w := Text.lowerString s
    if trueWords.contains w then pure true
    else if falseWords.contains w then pure false
    else throw .rejected
  | _ => throw .rejected

/-- The value of a decimal digit of any script; the mathematical digits stand in one range
of five runs of ten. -/
def digitValue? (c : Char) : Option Nat :=
  let rec go : List (Nat × Nat) → Option Nat
    | [] => none
    | (lo, hi) :: rest => if lo ≤ c.toNat ∧ c.toNat ≤ hi then some ((c.toNat - lo) % 10) else go rest
  go Text.decimalRanges

/-- Whether a text has two underscores in a row. -/
def doubleUnderscore : List Char → Bool
  | '_' :: '_' :: _ => true
  | _ :: rest => doubleUnderscore rest
  | [] => false

/-- Digits with single underscores between them, as a natural. -/
def digitsValue? (cs : List Char) : Option Nat :=
  if cs.isEmpty || cs.head? == some '_' || cs.getLast? == some '_' || doubleUnderscore cs then
    none
  else
    (cs.filter (· != '_')).foldlM (fun acc c => (digitValue? c).map (acc * 10 + ·)) 0

/-- The integer that a text writes: a sign, then digits, with blanks around. -/
def integerText? (s : String) : Option Int :=
  match Text.strip s.toList with
  | '-' :: rest => (digitsValue? rest).map (fun n => -(n : Int))
  | '+' :: rest => (digitsValue? rest).map (fun n => (n : Int))
  | cs => (digitsValue? cs).map (fun n => (n : Int))

/-- A double cut toward zero, or `none` when it is not finite. -/
def truncate? (x : Float) : Option Int :=
  if x.isNaN || x.isInf then none
  else if x == 0 then some 0
  else
    let b := Decimal.Binary.ofBits x.toBits
    let mag : Nat :=
      if b.exponent ≥ 0 then b.mantissa * Nat.pow 2 b.exponent.toNat
      else b.mantissa / Nat.pow 2 (-b.exponent).toNat
    some (if x < 0 then -(mag : Int) else mag)

def integer : Value → Except ModelError Int
  | .int n => pure n
  | .bool b => pure (if b then 1 else 0)
  | .float x =>
    if x.isInf then throw .overflow
    else match truncate? x with
      | some n => pure n
      | none => throw .rejected
  | .str s => match integerText? s with
    | some n => pure n
    | none => throw .rejected
  | _ => throw .rejected

def list : Value → Except ModelError (List Value)
  | .list xs => pure xs
  | _ => throw .rejected

/-- A key and value read from one member of a list of pairs. -/
def pair : Value → Except ModelError (Value × Value)
  | .list [k, v] =>
    match k with
    | .list _ | .dict _ => throw .rejected
    | _ => pure (k, v)
  | .str s =>
    match s.toList with
    | [a, b] => pure (.str (String.singleton a), .str (String.singleton b))
    | _ => throw .rejected
  | _ => throw .rejected

def dict : Value → Except ModelError (List (Value × Value))
  | .dict es => pure es
  | .list xs => do
    let ps ← xs.mapM pair
    pure (Value.entriesOf ps)
  | _ => throw .rejected

/-- A dictionary field with text keys, each value read by `f`. -/
def table {α : Type} (f : Value → Except ModelError α) (v : Value) : Except ModelError (Table α) := do
  let es ← dict v
  es.foldlM (fun (t : Table α) e => do
    let k ← text e.1
    let x ← f e.2
    pure (t.insert k x)) []

def listOf {α : Type} (f : Value → Except ModelError α) (v : Value) : Except ModelError (List α) := do
  let xs ← list v
  xs.mapM f

/-- The entries of a dictionary whose keys are all texts, as a model's arguments. -/
def arguments (v : Value) : Except ModelError (Table Value) := do
  let es ← dict v
  es.foldlM (fun (t : Table Value) e =>
    match e.1 with
    | .str k => pure (t.insert k e.2)
    | _ => throw .rejected) []

/-- An optional field of a model: absent or null is `none`. -/
def optional {α : Type} (f : Value → Except ModelError α) (args : Table Value) (k : String) :
    Except ModelError (Option α) :=
  match args.find? k with
  | none | some .null => pure none
  | some v => some <$> f v

/-- A field of a model with a default: absent is the default, null is refused. -/
def withDefault {α : Type} (f : Value → Except ModelError α) (args : Table Value) (k : String)
    (d : α) : Except ModelError α :=
  match args.find? k with
  | none => pure d
  | some .null => throw .rejected
  | some v => f v

def required {α : Type} (f : Value → Except ModelError α) (args : Table Value) (k : String) :
    Except ModelError α :=
  match args.find? k with
  | none | some .null => throw .rejected
  | some v => f v

end Field

end FlagLine
