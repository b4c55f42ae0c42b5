import FlagLine.Decimal.Nearest
/-!
# Values that results are made of

A result is a tree of values: none, truth values, integers, doubles and complex numbers
of two doubles, texts and runs of bytes, sequences, dictionaries and sets, values known
by their printed form (decimal numbers, dates, times, durations, paths and identifiers),
arrays of numbers with their shape and element type, and objects known only by their
type. Sequences, runs of bytes and sets are frozen or
not: only frozen ones, like every scalar, may be members of a set, while dictionaries
never may, and neither may arrays. Numbers compare by their exact value across kinds, a truth value counting as
0 or 1 and a complex number as its real part when its imaginary part is zero; a nan
equals nothing, since every nan read is a separate object.
-/

namespace FlagLine.Fingerprint

/-- How an object known only by its type compares: by a key of its value, only with
itself (each occurrence a separate object), or not at all, as it cannot be hashed. -/
inductive Identity where
  | byValue (key : String)
  | unique
  | unhashable
  deriving DecidableEq, Repr, Inhabited

/-- The elements of an array as its fingerprint sees them: for floating and complex
element types each element as a double, a complex one by its real part; for the others
the bytes that the elements fill in memory, in row order and least significant byte
first. -/
inductive ArrayBody where
  | doubles (items : List UInt64)
  | memory (bytes : List UInt8)
  deriving Repr, Inhabited

/-- A value of a result. -/
inductive Datum where
  | none
  | bool (b : Bool)
  | int (n : Int)
  | float (bits : UInt64)
  | complex (re im : UInt64)
  | text (s : String)
  | bytes (frozen : Bool) (data : List UInt8)
  | seq (frozen : Bool) (items : List Datum)
  | dict (entries : List (Datum × Datum))
  | set (frozen : Bool) (items : List Datum)
  | printed (text : String) (key : String)
  | array (shape : List Nat) (typeCode : String) (body : ArrayBody)
  | named (typeName : String) (identity : Identity)
  deriving Repr, Inhabited

namespace Datum

def isNanBits (bits : UInt64) : Bool := bits % 0x8000000000000000 > Decimal.infinityBits

def isZeroBits (bits : UInt64) : Bool := bits % 0x8000000000000000 = 0

def floatValue? (bits : UInt64) : Option (Bool × Nat × Nat) :=
  let magnitude := bits % 0x8000000000000000
  if magnitude ≥ Decimal.infinityBits then Option.none
  else if magnitude = 0 then some (false, 0, 1)
  else
    let (p, q) := Decimal.exactValue magnitude
    some (Decimal.negativeBits bits, p, q)

/-- The exact value of a number that compares with other numbers as a sign and a
fraction: truth values, integers, finite doubles, and complex numbers whose imaginary
part is zero. -/
def numeric? : Datum → Option (Bool × Nat × Nat)
  | .bool b => some (false, if b then 1 else 0, 1)
  | .int n => some (decide (n < 0), n.natAbs, 1)
  | .float bits => floatValue? bits
  | .complex re im => if isZeroBits im then floatValue? re else Option.none
  | _ => Option.none

def sameValue (a b : Bool × Nat × Nat) : Bool :=
  a.2.1 * b.2.2 = b.2.1 * a.2.2 && (a.1 == b.1 || a.2.1 = 0)

def isNan : Datum → Bool
  | .float bits => isNanBits bits
  | .complex re im => isNanBits re || isNanBits im
  | _ => false

/-- Whether a value may be a member of a set: scalars, frozen sequences of such values,
frozen runs of bytes and frozen sets, values known by their printed form, and objects
whose type hashes. -/
def hashable : Datum → Bool
  | .seq frozen items => frozen && allHashable items
  | .bytes frozen _ => frozen
  | .dict _ => false
  | .set frozen _ => frozen
  | .array _ _ _ => false
  | .named _ identity => identity != .unhashable
  | _ => true
where
  /-- Whether every value of a list may be a member of a set. -/
  allHashable : List Datum → Bool
    | [] => true
    | d :: ds => hashable d && allHashable ds

end Datum

end FlagLine.Fingerprint
