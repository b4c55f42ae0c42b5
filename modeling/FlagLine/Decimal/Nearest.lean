import FlagLine.Decimal.Shortest
import FlagLine.Text.Basic
import FlagLine.Config.Field
/-!
# The double nearest to a decimal

Reading `±d · 10^s` as a double scales the exact fraction to a mantissa of 53 bits, or
to the fixed scale of the subnormals below them, and rounds the rest half to even; a
carry out of the mantissa raises the exponent, and an exponent past the largest finite
double gives an infinity. Rounding a double to `n` significant digits works on its exact
value in the same way, with ties to an even last digit. The text of a number is read as
a sign, `inf`, `infinity` or `nan` in any case, or digits with an optional point and
exponent, where single underscores may stand between digits and blanks around the
whole.
-/

namespace FlagLine.Decimal

def scaledAt (p q : Nat) (e : Int) : Nat × Nat :=
  if e ≥ 0 then (p, q * Nat.pow 2 e.toNat) else (p * Nat.pow 2 (-e).toNat, q)

def roundHalfEven (n d : Nat) : Nat :=
  let m := n / d
  let twice := 2 * (n % d)
  if twice > d || (twice = d && m % 2 = 1) then m + 1 else m

/-- The binary exponent `e` with `2^52 ≤ p / (q · 2^e) < 2^53`, corrected from a guess
within fuel steps. -/
def binaryExponent (p q : Nat) : Nat → Int → Int
  | 0, e => e
  | fuel + 1, e =>
    let (num, den) := scaledAt p q e
    let m := num / den
    if m < Nat.pow 2 52 then binaryExponent p q fuel (e - 1)
    else if m ≥ Nat.pow 2 53 then binaryExponent p q fuel (e + 1)
    else e

/-- The bits of a double of the given sign, mantissa and exponent, the value being
`m · 2^e`; a mantissa below `2^52` is subnormal. -/
def bitsOf (negative : Bool) (m : Nat) (e : Int) : UInt64 :=
  let sign : Nat := if negative then Nat.pow 2 63 else 0
  if m ≥ Nat.pow 2 52 then
    let biased := e + 1075
    if biased ≥ 2047 then UInt64.ofNat (sign + 0x7FF0000000000000)
    else UInt64.ofNat (sign + biased.toNat * Nat.pow 2 52 + (m - Nat.pow 2 52))
  else UInt64.ofNat (sign + m)

/-- The bits of the double nearest to `±d · 10^s`; far outside the range of doubles the
result is a zero or an infinity without computing the fraction. -/
def nearestBits (negative : Bool) (d : Nat) (s : Int) : UInt64 :=
  let width : Int := (Nat.toDigits 10 d).length
  if d = 0 || s + width < -330 then bitsOf negative 0 0
  else if s + width > 310 then bitsOf negative (Nat.pow 2 52) 2000
  else
    let (p, q) := scaledTen d s
    let guess : Int := (Nat.log2 p : Int) - (Nat.log2 q : Int) - 52
    let e := max (binaryExponent p q 8 guess) (-1074)
    let (num, den) := scaledAt p q e
    let m := roundHalfEven num den
    if m = Nat.pow 2 53 then bitsOf negative (Nat.pow 2 52) (e + 1) else bitsOf negative m e

def exactValue (bits : UInt64) : Nat × Nat :=
  let b := Binary.ofBits bits
  scaledTwo b.mantissa b.exponent

/-- The digits `d` and exponent `s` of a finite double's magnitude other than zero,
rounded to `n` significant digits: `d · 10^s` with `10^(n-1) ≤ d < 10^n`. -/
def roundSignificant (bits : UInt64) (n : Nat) : Nat × Int :=
  let x := exactValue bits
  let e := decimalExponent x 700 0
  let s := e - n + 1
  let g := scaledTen 1 s
  let d := roundHalfEven (x.1 * g.2) (x.2 * g.1)
  if d = Nat.pow 10 n then (d / 10, s + 1) else (d, s)

def negativeBits (bits : UInt64) : Bool := bits ≥ 0x8000000000000000

def infinityBits : UInt64 := 0x7FF0000000000000

def nanBits : UInt64 := 0x7FF8000000000000

/-- A double rounded to `n` significant digits and read back; zeros become positive,
infinities and nans stay. -/
def roundBits (bits : UInt64) (n : Nat) : UInt64 :=
  let magnitude := bits % 0x8000000000000000
  if magnitude ≥ infinityBits then bits
  else if magnitude = 0 then 0
  else
    let (d, s) := roundSignificant magnitude n
    nearestBits (negativeBits bits) d s

def digitRun? (cs : List Char) : Option (Nat × Nat) :=
  (Field.digitsValue? cs).map (fun v => (v, (cs.filter (· != '_')).length))

def readUnsigned? (cs : List Char) : Option (Nat × Int) := do
  let (mantissa, exponent) := match cs.findIdx? (fun c => c == 'e' || c == 'E') with
    | some i => (cs.take i, some (cs.drop (i + 1)))
    | none => (cs, none)
  let (whole, frac) := match mantissa.idxOf? '.' with
    | some i => (mantissa.take i, some (mantissa.drop (i + 1)))
    | none => (mantissa, none)
  let (w, _) ← if whole.isEmpty then (if frac.isSome then some (0, 0) else none) else digitRun? whole
  let (f, fl) ← match frac with
    | none => some (0, 0)
    | some [] => if whole.isEmpty then none else some (0, 0)
    | some fs => digitRun? fs
  if whole.isEmpty && fl = 0 then none
  let ex : Int ← match exponent with
    | none => some 0
    | some ('-' :: ds) => (Field.digitsValue? ds).map (fun v => -(v : Int))
    | some ('+' :: ds) => (Field.digitsValue? ds).map (fun v => (v : Int))
    | some ds => (Field.digitsValue? ds).map (fun v => (v : Int))
  pure (w * Nat.pow 10 fl + f, ex - fl)

def readBits? (s : String) : Option UInt64 :=
  let cs := Text.strip s.toList
  let (negative, body) := match cs with
    | '-' :: r => (true, r)
    | '+' :: r => (false, r)
    | r => (false, r)
  let sign : UInt64 := if negative then 0x8000000000000000 else 0
  let word := Text.lowerString (String.ofList body)
  if word == "inf" || word == "infinity" then some (sign + infinityBits)
  else if word == "nan" then some (sign + nanBits)
  else (readUnsigned? body).map (fun (d, e) => nearestBits negative d e)

end FlagLine.Decimal
