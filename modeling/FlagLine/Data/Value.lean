import FlagLine.Decimal.Shortest
import FlagLine.Text.Basic
/-!
# Configuration data

The values a configuration document holds: null, switches, integers, doubles, texts,
lists, and dictionaries that keep their keys in the order they were first written.
Each value has a truth (empty and zero values are false), a key equality under which
`1`, `1.0` and `true` name the same entry, and two texts: its plain text and its
quoted form, in which texts stand in quotes and collections list their members.
-/

namespace FlagLine

/-- A value of a configuration document. Dictionaries keep their entries in the order the
keys were first written. -/
inductive Value where
  | null
  | bool (b : Bool)
  | int (n : Int)
  | float (x : Float)
  | str (s : String)
  | list (xs : List Value)
  | dict (entries : List (Value × Value))
  deriving Inhabited

namespace Value

/-- Whether a value counts as true: every value but null, false, zero and the empty text
and collections. -/
def truthy : Value → Bool
  | .null => false
  | .bool b => b
  | .int n => n != 0
  | .float x => x != 0
  | .str s => !s.isEmpty
  | .list xs => !xs.isEmpty
  | .dict es => !es.isEmpty

/-- What a key stands for as the name of an entry: a text, null, a whole number, or the bits
of a double that is not a whole number. -/
inductive KeyForm where
  | text (s : String)
  | null
  | whole (n : Int)
  | double (bits : UInt64)
  deriving DecidableEq

/-- The whole number a finite double stands for exactly, when it is one. -/
def wholeOf? (x : Float) : Option Int :=
  let b := Decimal.Binary.ofBits x.toBits
  let sign : Int := if x.toBits ≥ 0x8000000000000000 then -1 else 1
  if b.exponent ≥ 0 then some (sign * (b.mantissa * Nat.pow 2 b.exponent.toNat : Nat))
  else
    let unit := Nat.pow 2 (-b.exponent).toNat
    if b.mantissa % unit = 0 then some (sign * (b.mantissa / unit : Nat)) else none

/-- The form a key names its entry by: switches and numbers by the number they stand for,
exactly, so that `1`, `1.0` and `true` are one key; a NaN, a list and a dictionary name
no entry. -/
def keyForm? : Value → Option KeyForm
  | .str s => some (.text s)
  | .null => some .null
  | .bool b => some (.whole (if b then 1 else 0))
  | .int n => some (.whole n)
  | .float x =>
    if x.isNaN then none
    else if x.isInf then some (.double x.toBits)
    else match wholeOf? x with
      | some n => some (.whole n)
      | none => some (.double x.toBits)
  | .list _ => none
  | .dict _ => none

/-- Whether two keys name the same entry: when both have a form and the forms agree. -/
def sameKey (a b : Value) : Bool :=
  match a.keyForm?, b.keyForm? with
  | some p, some q => p == q
  | _, _ => false

theorem sameKey_iff {a b : Value} :
    sameKey a b = true ↔ ∃ p, a.keyForm? = some p ∧ b.keyForm? = some p := by
  unfold sameKey
  cases a.keyForm? with
  | none => simp
  | some p =>
    cases b.keyForm? with
    | none => simp
    | some q =>
      simp only [beq_iff_eq, Option.some.injEq]
      exact ⟨fun h => ⟨p, rfl, h.symm⟩, fun ⟨_, hp, hq⟩ => hp.trans hq.symm⟩

theorem sameKey_comm (a b : Value) : sameKey a b = sameKey b a := by
  apply Bool.eq_iff_iff.2
  simp only [sameKey_iff]
  exact ⟨fun ⟨p, ha, hb⟩ => ⟨p, hb, ha⟩, fun ⟨p, hb, ha⟩ => ⟨p, ha, hb⟩⟩

/-- Key equality is transitive, so the keys that name one entry form a class. -/
theorem sameKey_trans {a b c : Value} (hab : sameKey a b = true) (hbc : sameKey b c = true) :
    sameKey a c = true := by
  obtain ⟨p, ha, hb⟩ := sameKey_iff.1 hab
  obtain ⟨q, hb', hc⟩ := sameKey_iff.1 hbc
  rw [hb] at hb'
  cases hb'
  exact sameKey_iff.2 ⟨p, ha, hc⟩

example : sameKey (.int 1) (.float 1.0) && sameKey (.bool true) (.float 1.0) = true := by decide
example : sameKey (.int 9007199254740993) (.float 9007199254740992.0) = false := by decide

/-- The value of the first entry with a key, in a list of entries. -/
def lookup (k : Value) : List (Value × Value) → Option Value
  | [] => none
  | (k', v) :: rest => if sameKey k k' then some v else lookup k rest

/-- Entries with the value under a key replaced where the key stands, or added at the end. -/
def setEntry (k v : Value) : List (Value × Value) → List (Value × Value)
  | [] => [(k, v)]
  | (k', v') :: rest => if sameKey k k' then (k', v) :: rest else (k', v') :: setEntry k v rest

/-- Entries built one after another, a later entry for a key replacing the value of an
earlier one in its place. -/
def entriesOf (es : List (Value × Value)) : List (Value × Value) :=
  es.foldl (fun acc e => setEntry e.1 e.2 acc) []

/-- The value under a text key of a dictionary. -/
def get? (v : Value) (k : String) : Option Value :=
  match v with
  | .dict es => lookup (.str k) es
  | _ => none

/-- Whether a dictionary has an entry under a text key. -/
def hasKey (v : Value) (k : String) : Bool := (v.get? k).isSome

/-- The text of a value that is a text. -/
def str? : Value → Option String
  | .str s => some s
  | _ => none

def ofPairs (ps : List (String × Value)) : Value := .dict (ps.map (fun p => (.str p.1, p.2)))

def ofStrings (xs : List String) : Value := .list (xs.map .str)

end Value

/-- Where a double is written with a point rather than an exponent, and how its exponent
is written. -/
structure FloatNotation where
  /-- The place of the decimal point above which notation is positional. -/
  positionalAbove : Int
  /-- The highest place of the decimal point written positionally. -/
  positionalUpTo : Int
  /-- The fewest digits of an exponent. -/
  exponentDigits : Nat

/-- Doubles are written positionally while the point stands between four places left of
the first digit and sixteen places right of it; an exponent has a sign and two digits at
least; a whole number keeps a point and a zero. -/
def Value.floatNotation : FloatNotation := ⟨-4, 16, 2⟩

/-- The text of a double: the fewest digits that read back, laid out by `fmt`. -/
def floatText (fmt : FloatNotation) (x : Float) : String :=
  if x.isNaN then "nan"
  else
    let neg := x.toBits ≥ 0x8000000000000000
    let sign := if neg then "-" else ""
    if x.isInf then sign ++ "inf"
    else if x == 0 then sign ++ "0.0"
    else
      let (d, s) := Decimal.shortest x.toBits
      let ds := Decimal.digitsOf d
      let n : Int := ds.length
      let point : Int := n + s
      let body : String :=
        if fmt.positionalAbove < point ∧ point ≤ fmt.positionalUpTo then
          if point ≤ 0 then "0." ++ String.ofList (List.replicate (-point).toNat '0' ++ ds)
          else if point ≥ n then
            String.ofList (ds ++ List.replicate (point - n).toNat '0') ++ ".0"
          else
            String.ofList (ds.take point.toNat) ++ "." ++ String.ofList (ds.drop point.toNat)
        else
          let ex := point - 1
          let exDigits := Decimal.digitsOf ex.natAbs
          let padded := List.replicate (fmt.exponentDigits - exDigits.length) '0' ++ exDigits
          let mant := match ds with
            | [] => "0"
            | [c] => String.singleton c
            | c :: rest => String.singleton c ++ "." ++ String.ofList rest
          mant ++ "e" ++ (if ex < 0 then "-" else "+") ++ String.ofList padded
      sign ++ body

/-- Whether a character is written as itself inside a quoted text. -/
def isPrintable (c : Char) : Bool :=
  let n := c.toNat
  !(n < 0x20 || (0x7F ≤ n && n ≤ 0xA0) || n == 0xAD || (0x2000 ≤ n && n ≤ 0x200F) ||
    (0x2028 ≤ n && n ≤ 0x202F) || (0x205F ≤ n && n ≤ 0x206F) || n == 0x3000 || n == 0xFEFF ||
    (0xD800 ≤ n && n ≤ 0xF8FF) || (0xFFF9 ≤ n && n ≤ 0xFFFB) || n == 0x1680 || n == 0x180E)

/-- Hexadecimal digits of a natural, padded to a width. -/
def hexPadded (width n : Nat) : List Char :=
  let ds := Nat.toDigits 16 n
  List.replicate (width - ds.length) '0' ++ ds

/-- A character inside a quoted text delimited by `q`. -/
def quotedChar (q : Char) (c : Char) : List Char :=
  if c = q ∨ c = '\\' then ['\\', c]
  else if c = '\n' then ['\\', 'n']
  else if c = '\r' then ['\\', 'r']
  else if c = '\t' then ['\\', 't']
  else if isPrintable c then [c]
  else if c.toNat < 0x100 then '\\' :: 'x' :: hexPadded 2 c.toNat
  else if c.toNat < 0x10000 then '\\' :: 'u' :: hexPadded 4 c.toNat
  else '\\' :: 'U' :: hexPadded 8 c.toNat

/-- A text in quotes: single quotes, unless it holds a single quote and no double quote. -/
def quoteText (s : String) : String :=
  let cs := s.toList
  let q := if cs.contains '\'' && !cs.contains '"' then '"' else '\''
  String.ofList (q :: cs.flatMap (quotedChar q) ++ [q])

namespace Value

mutual

/-- The quoted form of a value: texts in quotes, collections with their members. -/
def repr : Value → String
  | .null => "None"
  | .bool b => if b then "True" else "False"
  | .int n => toString n
  | .float x => floatText floatNotation x
  | .str s => quoteText s
  | .list xs => "[" ++ reprList xs ++ "]"
  | .dict es => "\x7b" ++ reprEntries es ++ "\x7d"

/-- The quoted forms of list members, with commas between them. -/
def reprList : List Value → String
  | [] => ""
  | [x] => repr x
  | x :: rest => repr x ++ ", " ++ reprList rest

/-- The quoted forms of dictionary entries, with commas between them. -/
def reprEntries : List (Value × Value) → String
  | [] => ""
  | [(k, v)] => repr k ++ ": " ++ repr v
  | (k, v) :: rest => repr k ++ ": " ++ repr v ++ ", " ++ reprEntries rest

end

/-- The plain text of a value: a text is itself, any other value its quoted form. -/
def text : Value → String
  | .str s => s
  | v => v.repr

end Value

end FlagLine
