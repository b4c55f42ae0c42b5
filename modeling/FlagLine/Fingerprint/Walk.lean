import FlagLine.Fingerprint.Printed
import FlagLine.Digest.Sha256
/-!
# Fingerprints of results

A result's fingerprint is the SHA-256 digest, in hexadecimal, of its encoding: one run of
bytes that tags every value with its kind. `None`, `True` and `False` are their names and
an integer is its decimal text. A double is first rounded to six significant digits, a
zero losing its sign, and then written as the shortest text that reads back; a complex
number is `c` and its two parts so written. Texts and runs of bytes alike are `s` and
their bytes, a text's in UTF-8. A sequence is `L`, its length and its members in order;
a dictionary is `D`, its length and each key followed by its value, the entries ordered
by the fingerprints of their keys; a set is `S`, its length and the sorted fingerprints of
its members, so that neither depends on the order in which it was built. An array is `A`,
its shape written as a tuple and the code of its element type, then for floating and
complex elements each element, in row order, as a rounded double, and for others the
digest of the bytes the elements fill. Values known by their printed form are that form, and other
objects the name of their type. A set built
from members keeps the first of each group of equal members and takes no member that
cannot be hashed.
-/

namespace FlagLine.Fingerprint

def roundedText (bits : UInt64) : String :=
  floatText Value.floatNotation (Float.ofBits (Decimal.roundBits bits 6))

def shapeText : List Nat → String
  | [n] => "(" ++ toString n ++ ",)"
  | ns => "(" ++ ", ".intercalate (ns.map toString) ++ ")"

def utf8 (s : String) : ByteArray := s.toUTF8

/-- The encoding of an array's elements: each double rounded and written as text, or the
digest of the elements' bytes. -/
def bodyCode : ArrayBody → ByteArray
  | .doubles items => utf8 (String.join (items.map roundedText))
  | .memory bytes => Sha256.hash ⟨bytes.toArray⟩

def joinBytes (parts : List ByteArray) : ByteArray := parts.foldl (· ++ ·) ByteArray.empty

mutual

def encode : Datum → ByteArray
  | .none => utf8 "None"
  | .bool b => utf8 (if b then "True" else "False")
  | .int n => utf8 (toString n)
  | .float bits => utf8 (roundedText bits)
  | .complex re im => utf8 ("c" ++ roundedText re ++ roundedText im)
  | .text s => utf8 "s" ++ utf8 s
  | .bytes _ data => utf8 "s" ++ ⟨data.toArray⟩
  | .seq _ items => utf8 ("L" ++ toString items.length) ++ encodeAll items
  | .dict entries =>
    let sorted := (entryCodes entries).mergeSort (fun a b => decide (a.1 ≤ b.1))
    utf8 ("D" ++ toString entries.length) ++ joinBytes (sorted.map Prod.snd)
  | .set _ items =>
    let sorted := (digestsOf items).mergeSort (fun a b => decide (a ≤ b))
    utf8 ("S" ++ toString items.length ++ String.join sorted)
  | .printed shown _ => utf8 shown
  | .array shape code body => utf8 ("A" ++ shapeText shape ++ code) ++ bodyCode body
  | .named typeName _ => utf8 typeName

def encodeAll : List Datum → ByteArray
  | [] => ByteArray.empty
  | d :: ds => encode d ++ encodeAll ds

def digestsOf : List Datum → List String
  | [] => []
  | d :: ds => Sha256.hexDigest (encode d) :: digestsOf ds

/-- Each entry of a dictionary as the fingerprint of its key and the encoding of the key
followed by that of the value. -/
def entryCodes : List (Datum × Datum) → List (String × ByteArray)
  | [] => []
  | (k, v) :: es =>
    let key := encode k
    (Sha256.hexDigest key, key ++ encode v) :: entryCodes es

end

def fingerprint (d : Datum) : String := Sha256.hexDigest (encode d)

/-- Whether two members of a set are equal: numbers by value, values known by their
printed form or only by their type by their keys, nans and separate objects never, and
other values when their encodings agree. -/
def same (a b : Datum) : Bool :=
  if a.isNan || b.isNan then false
  else match a.numeric?, b.numeric? with
    | some x, some y => Datum.sameValue x y
    | some _, _ => false
    | _, some _ => false
    | none, none =>
      match a, b with
      | .named t (.byValue k), .named u (.byValue l) => t == u && k == l
      | .named _ _, _ => false
      | _, .named _ _ => false
      | .printed _ k, .printed _ l => k == l
      | _, _ => (encode a).data == (encode b).data

/-- A set of members, frozen or not: the first of each group of equal members, in order;
a member that cannot be hashed is an error. -/
def setOf (frozen : Bool) (items : List Datum) : Except BuildError Datum :=
  if items.all Datum.hashable then
    .ok (.set frozen (items.foldl (fun acc x => if acc.any (same · x) then acc else acc ++ [x]) []))
  else .error .wrongType

end FlagLine.Fingerprint
