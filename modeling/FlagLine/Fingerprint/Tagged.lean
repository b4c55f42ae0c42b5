import FlagLine.Fingerprint.Walk
/-!
# Results written as data

A result written as plain data: null, truth values, numbers, texts and lists stand for
themselves, and a dictionary for a dictionary with text keys, except a dictionary of one
key that starts with `$`, which names a typed value built from that key's value. The
tags are `$float` (from a text, so that nans and infinities can be written), `$complex`
(two parts), `$tuple`, `$set` and `$frozenset` (from lists), `$bytes`, `$bytearray` and
`$memoryview` (from hexadecimal), `$decimal`, `$fraction`, `$date`, `$time`,
`$timedelta` (seconds), `$path` and `$uuid`; `$point` builds a record of two fields `x`
and `y`, walked as a dictionary, `$type` the record's class and `$object` a bare object,
both known only by their type. `$ndarray` builds an array from regular nested lists of
numbers and the name of an element type, or the type its elements call for when none is
named: floating elements are rounded to the type's precision and a complex array keeps
the real part of each element; whole numbers must fit an integer type, into which a double
is cut toward zero; truth values are one or zero. A one-key dictionary with any other key
is a dictionary.
-/

namespace FlagLine.Fingerprint

/-! ## Arrays -/

/-- The element types of arrays by name, with their codes: byte order, kind and size. -/
def arrayTypes : List (String × String) :=
  [("float64", "<f8"), ("float32", "<f4"), ("float16", "<f2"), ("complex128", "<c16"),
   ("complex64", "<c8"), ("int64", "<i8"), ("int32", "<i4"), ("int16", "<i2"), ("int8", "|i1"),
   ("uint64", "<u8"), ("uint32", "<u4"), ("uint16", "<u2"), ("uint8", "|u1"), ("bool", "|b1")]

mutual

/-- The shape of nested lists: the length at each level, read along the first members. -/
def arrayShape : Value → List Nat
  | .list xs => xs.length :: firstShape xs
  | _ => []

def firstShape : List Value → List Nat
  | [] => []
  | x :: _ => arrayShape x

end

mutual

def arrayLeaves : Value → List Value
  | .list xs => leavesOfList xs
  | v => [v]

def leavesOfList : List Value → List Value
  | [] => []
  | x :: xs => arrayLeaves x ++ leavesOfList xs

end

def shallower : Option Nat → Option Nat → Option Nat
  | some a, some b => some (min a b)
  | a, b => a.or b

mutual

/-- The first depth below which nested lists stop being regular, none if they are
regular throughout. `shape` holds the length of the first list at each depth, down to
the first number: a number above that depth, a list whose length differs from the first
one's at its depth, and a list at or below that depth each mark the depth where they are
found, or the depth of the first number when that is shallower. -/
def raggedAt (shape : List Nat) (depth : Nat) : Value → Option Nat
  | .list xs =>
    if depth < shape.length then
      if xs.length == shape.getD depth 0 then raggedAmong shape (depth + 1) xs else some depth
    else some shape.length
  | _ => if depth == shape.length then none else some depth

/-- The first depth where the members of a list, found at a depth, stop being regular. -/
def raggedAmong (shape : List Nat) (depth : Nat) : List Value → Option Nat
  | [] => none
  | x :: xs => shallower (raggedAt shape depth x) (raggedAmong shape depth xs)

end

/-- The kind of an element type code: `f` floating, `c` complex, `i` signed, `u` unsigned
and `b` truth values. -/
def codeKind (code : String) : Char := (code.toList.drop 1).headD 'f'

def codeSize (code : String) : Nat := ((String.ofList (code.toList.drop 2)).toNat?).getD 8

/-- A double rounded to the nearest value of half precision, ties to even: eleven
significant bits down to the exponent -14 and steps of 2^-24 below it, and from 65520 up
an infinity. -/
def halfBits (bits : UInt64) : UInt64 :=
  let field := (bits / 0x10000000000000 % 0x800).toNat
  let negative := bits ≥ 0x8000000000000000
  if field == 0x7FF then bits
  else
    let significand := (bits % 0x10000000000000).toNat + (if field == 0 then 0 else Nat.pow 2 52)
    let top : Int := (max field 1 : Nat) - 1023
    let dropped : Nat := if top ≥ -14 then 42 else (42 + (-14 - top)).toNat
    let kept := significand / Nat.pow 2 dropped
    let rest := significand % Nat.pow 2 dropped
    let half := Nat.pow 2 dropped / 2
    let rounded := if rest > half || (rest == half && half > 0 && kept % 2 == 1) then kept + 1 else kept
    let x := Float.scaleB (Float.ofNat rounded) (top - 52 + dropped)
    let x := if x ≥ 65536 then Float.ofBits Decimal.infinityBits else x
    (if negative then -x else x).toBits

/-- The double of a number as an element of an array of a floating or complex type code,
rounded to the precision of one part of an element. -/
def elementDouble (code : String) (v : Value) : Except BuildError UInt64 := do
  let bits ← match v with
    | .int n => pure (Decimal.nearestBits (decide (n < 0)) n.natAbs 0)
    | .bool b => pure (Decimal.nearestBits false (if b then 1 else 0) 0)
    | .float x => pure x.toBits
    | _ => throw .wrongType
  let part := if codeKind code == 'c' then codeSize code / 2 else codeSize code
  match part with
  | 2 => pure (halfBits bits)
  | 4 => pure (Float.ofBits bits).toFloat32.toFloat.toBits
  | _ => pure bits

def truncatedBits (bits : UInt64) : Int :=
  match Datum.floatValue? bits with
  | some (negative, p, q) => if negative then -((p / q : Nat) : Int) else ((p / q : Nat) : Int)
  | none => 0

/-- The whole number of a number as an element of an array of an integer or truth type
code: a whole number must fit the type, a double is cut toward zero, and a truth
element is one for anything but zero. -/
def elementWhole (code : String) (v : Value) : Except BuildError Int :=
  let width := 8 * codeSize code
  match codeKind code, v with
  | _, .bool b => pure (if b then 1 else 0)
  | 'b', .int n => pure (if n == 0 then 0 else 1)
  | 'b', .float x => pure (if x == 0 then 0 else 1)
  | 'u', .int n => if 0 ≤ n && n < Int.pow 2 width then pure n else throw .overflow
  | _, .int n => if -Int.pow 2 (width - 1) ≤ n && n < Int.pow 2 (width - 1) then pure n else throw .overflow
  | _, .float x => pure (truncatedBits x.toBits)
  | _, _ => throw .wrongType

/-- The lowest bytes of a natural number, as many as asked for, least significant first. -/
def lowBytes : Nat → Nat → List UInt8
  | 0, _ => []
  | k + 1, m => UInt8.ofNat (m % 256) :: lowBytes k (m / 256)

/-- The bytes of a whole number in a number of bytes, least significant first, a
negative number in two's complement. -/
def littleEndian (size : Nat) (n : Int) : List UInt8 :=
  lowBytes size (n % (Nat.pow 2 (8 * size) : Nat)).toNat

/-- The type code of an array whose element type is not named: truth values if all its
elements are truth values, whole numbers if none is a double, and doubles otherwise. -/
def inferredCode (leaves : List Value) : String :=
  let isBool : Value → Bool := fun v => match v with | .bool _ => true | _ => false
  let isFloat : Value → Bool := fun v => match v with | .float _ => true | _ => false
  if !leaves.isEmpty && leaves.all isBool then "|b1"
  else if leaves.isEmpty || leaves.any isFloat then "<f8"
  else "<i8"

/-- The array that nested lists of numbers and an element type name build; irregular
lists make no array. -/
def arrayOf (es : List (Value × Value)) : Except BuildError Datum := do
  let data := (Value.lookup (.str "data") es).getD (.list [])
  let shape := arrayShape data
  if let some d := raggedAt shape 0 data then
    throw (.invalid ("setting an array element with a sequence. The requested array has an " ++
      "inhomogeneous shape after " ++ toString d ++ " dimensions. The detected shape was " ++
      shapeText (shape.take d) ++ " + inhomogeneous part."))
  let leaves := arrayLeaves data
  let code ← match Value.lookup (.str "dtype") es with
    | some (.str name) => match arrayTypes.lookup name with
      | some c => pure c
      | none => throw .wrongType
    | some .null | none => pure (inferredCode leaves)
    | _ => throw .wrongType
  match codeKind code with
  | 'f' | 'c' => pure (.array shape code (.doubles (← leaves.mapM (elementDouble code))))
  | _ =>
    let wholes ← leaves.mapM (elementWhole code)
    pure (.array shape code (.memory (wholes.flatMap (littleEndian (codeSize code)))))

mutual

def ofValue : Value → Except BuildError Datum
  | .null => pure .none
  | .bool b => pure (.bool b)
  | .int n => pure (.int n)
  | .float x => pure (.float x.toBits)
  | .str s => pure (.text s)
  | .list xs => do pure (.seq false (← ofList xs))
  | .dict [(.str tag, a)] =>
    match tag, a with
    | "$float", a => do pure (.float (← floatOf (← ofValue a)))
    | "$tuple", .list xs => do pure (.seq true (← ofList xs))
    | "$set", .list xs => do setOf false (← ofList xs)
    | "$frozenset", .list xs => do setOf true (← ofList xs)
    | "$bytes", a => do bytesOf true (← ofValue a)
    | "$bytearray", a => do bytesOf false (← ofValue a)
    | "$memoryview", a => do bytesOf true (← ofValue a)
    | "$complex", .list [re, im] => do
      pure (.complex (← floatOf (← ofValue re)) (← floatOf (← ofValue im)))
    | "$decimal", a => do decimalOf (← ofValue a)
    | "$fraction", a => do fractionOf (← ofValue a)
    | "$date", a => do dateOf (← ofValue a)
    | "$time", a => do timeOf (← ofValue a)
    | "$timedelta", a => do durationOf (← ofValue a)
    | "$path", a => do pathOf (← ofValue a)
    | "$uuid", a => do identifierOf (← ofValue a)
    | "$point", .list [x, y] => do pure (.dict [(.text "x", ← ofValue x), (.text "y", ← ofValue y)])
    | "$type", _ => pure (.named "<builtins.type>" (.byValue "Point"))
    | "$ndarray", .dict es => arrayOf es
    | "$object", _ => pure (.named "<builtins.object>" .unique)
    | t, a =>
      if t.startsWith "$" && ["$tuple", "$set", "$frozenset", "$complex", "$point"].contains t then
        throw .wrongType
      else do pure (.dict [(.text t, ← ofValue a)])
  | .dict es => do pure (.dict (← ofEntries es))

def ofList : List Value → Except BuildError (List Datum)
  | [] => pure []
  | x :: xs => do pure ((← ofValue x) :: (← ofList xs))

def ofEntries : List (Value × Value) → Except BuildError (List (Datum × Datum))
  | [] => pure []
  | (k, v) :: es => do pure ((← ofValue k, ← ofValue v) :: (← ofEntries es))

end

/-- The fingerprint of a result written as data, and the text of its rounding when it is
a double. -/
def describe (v : Value) : Except BuildError (String × Option String) := do
  let d ← ofValue v
  let rounded := match d with
    | .float bits => some (roundedText bits)
    | _ => Option.none
  pure (fingerprint d, rounded)

end FlagLine.Fingerprint
