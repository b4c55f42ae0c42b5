import FlagLine.Fingerprint.Datum
import FlagLine.Host.Path
/-!
# Values built from text

Typed values are read from text and known by the form they print as. A decimal number
keeps the digits it was written with: its coefficient loses only leading zeros and its
exponent counts the digits after the point, and it prints positionally while the
exponent is not positive and the first digit stands no more than six places right of
the point, else with one digit before the point and an exponent. A fraction is a pair
of integers in lowest terms. Dates are written `YYYY-MM-DD` or `YYYYMMDD`, times
`HH[:MM[:SS[.ffffff]]]` with the colons optional; both are range-checked. A duration of
seconds is split into days, seconds and microseconds, the microseconds of a double
rounded half to even. An identifier is 32 hexadecimal digits, with dashes, braces and a
`urn:uuid:` prefix allowed around them. A path is normalised as a path, and bytes are
read two hexadecimal digits at a time with blanks between pairs.
-/

namespace FlagLine.Fingerprint

/-- Why a typed value could not be built: a malformed text, a source of the wrong kind, a
malformed decimal number, a zero denominator, or a value out of range. -/
inductive BuildError where
  | invalid (message : String)
  | wrongType
  | invalidDecimal
  | zeroDenominator
  | overflow
  deriving DecidableEq, Repr, Inhabited

def BuildError.message? : BuildError → Option String
  | .invalid m => some m
  | _ => Option.none

def asciiDigit? (c : Char) : Option Nat :=
  if '0' ≤ c ∧ c ≤ '9' then some (c.toNat - '0'.toNat) else Option.none

def asciiNumber? (cs : List Char) : Option Nat :=
  if cs.isEmpty then Option.none
  else cs.foldlM (fun acc c => (asciiDigit? c).map (acc * 10 + ·)) 0

def hexDigit? (c : Char) : Option Nat :=
  if '0' ≤ c ∧ c ≤ '9' then some (c.toNat - '0'.toNat)
  else if 'a' ≤ c ∧ c ≤ 'f' then some (c.toNat - 'a'.toNat + 10)
  else if 'A' ≤ c ∧ c ≤ 'F' then some (c.toNat - 'A'.toNat + 10)
  else Option.none

def natText (n : Nat) : String := String.ofList (Nat.toDigits 10 n)

/-! ## Decimal numbers -/

/-- A decimal number as written: its sign, and either a finite coefficient and exponent,
an infinity, or a nan, quiet or signalling, with the digits of its payload. -/
inductive DecimalNumber where
  | finite (negative : Bool) (coefficient : Nat) (exponent : Int)
  | infinite (negative : Bool)
  | nan (negative : Bool) (signalling : Bool) (payload : Nat)
  deriving DecidableEq, Repr, Inhabited

/-- The digits with single underscores between them of a decimal's parts, as a natural
and a count of digits. -/
def decimalRun? (cs : List Char) : Option (Nat × Nat) :=
  (Field.digitsValue? cs).map (fun v => (v, (cs.filter (· != '_')).length))

/-- Reads a decimal number: a sign, then `Infinity`, `Inf`, `NaN` or `sNaN` with an optional
payload, in any case, or digits with an optional point and exponent. -/
def DecimalNumber.read? (s : String) : Option DecimalNumber := do
  let cs := Text.strip s.toList
  let (negative, body) := match cs with
    | '-' :: r => (true, r)
    | '+' :: r => (false, r)
    | r => (false, r)
  let lower := Text.lower body
  if lower == "infinity".toList || lower == "inf".toList then return .infinite negative
  if lower.take 3 == "nan".toList then
    let p := lower.drop 3
    let v ← if p.isEmpty then some 0 else (decimalRun? p).map Prod.fst
    return .nan negative false v
  if lower.take 4 == "snan".toList then
    let p := lower.drop 4
    let v ← if p.isEmpty then some 0 else (decimalRun? p).map Prod.fst
    return .nan negative true v
  let (d, e) ← readDigits? body
  pure (.finite negative d e)
where
  /-- Digits with an optional point and exponent as a coefficient and an exponent. -/
  readDigits? (cs : List Char) : Option (Nat × Int) := do
    let (mantissa, exponent) := match cs.findIdx? (fun c => c == 'e' || c == 'E') with
      | some i => (cs.take i, some (cs.drop (i + 1)))
      | none => (cs, Option.none)
    let (whole, frac) := match mantissa.idxOf? '.' with
      | some i => (mantissa.take i, some (mantissa.drop (i + 1)))
      | none => (mantissa, Option.none)
    let (w, _) ← if whole.isEmpty then some (0, 0) else decimalRun? whole
    let (f, fl) ← match frac with
      | some [] => some (0, 0)
      | some fs => decimalRun? fs
      | none => some (0, 0)
    if whole.isEmpty && fl = 0 then Option.none
    let ex : Int ← match exponent with
      | none => some 0
      | some ('-' :: ds) => (Field.digitsValue? ds).map (fun v => -(v : Int))
      | some ('+' :: ds) => (Field.digitsValue? ds).map (fun v => (v : Int))
      | some ds => (Field.digitsValue? ds).map (fun v => (v : Int))
    pure (w * Nat.pow 10 fl + f, ex - fl)

def DecimalNumber.ofInt (n : Int) : DecimalNumber := .finite (decide (n < 0)) n.natAbs 0

def DecimalNumber.ofBits (bits : UInt64) : DecimalNumber :=
  let negative := Decimal.negativeBits bits
  let magnitude := bits % 0x8000000000000000
  if magnitude = Decimal.infinityBits then .infinite negative
  else if magnitude > Decimal.infinityBits then .nan false false 0
  else
    let b := Decimal.Binary.ofBits magnitude
    let m := if magnitude = 0 then 0 else b.mantissa
    if b.exponent ≥ 0 then .finite negative (m * Nat.pow 2 b.exponent.toNat) 0
    else
      let k := (-b.exponent).toNat
      .finite negative (m * Nat.pow 5 k) (-(k : Int))

def DecimalNumber.text : DecimalNumber → String
  | .infinite negative => (if negative then "-" else "") ++ "Infinity"
  | .nan negative signalling payload =>
    (if negative then "-" else "") ++ (if signalling then "sNaN" else "NaN") ++
      (if payload = 0 then "" else natText payload)
  | .finite negative coefficient exponent =>
    let ds := Nat.toDigits 10 coefficient
    let n : Int := ds.length
    let left := exponent + n
    let point : Int := if exponent ≤ 0 && left > -6 then left else 1
    let body :=
      if point ≤ 0 then "0." ++ String.ofList (List.replicate (-point).toNat '0' ++ ds)
      else if point ≥ n then String.ofList (ds ++ List.replicate (point - n).toNat '0')
      else String.ofList (ds.take point.toNat) ++ "." ++ String.ofList (ds.drop point.toNat)
    let shown := left - point
    let ex := if shown = 0 then "" else "E" ++ (if shown > 0 then "+" else "-") ++ natText shown.natAbs
    (if negative then "-" else "") ++ body ++ ex

/-- The key a decimal number compares by: its value, trailing zeros of the coefficient
aside; nans compare with nothing. -/
def DecimalNumber.key : DecimalNumber → Option String
  | .finite negative coefficient exponent =>
    if coefficient = 0 then some "0"
    else
      let (c, e) := Decimal.trimZeros 1000 (coefficient, exponent)
      some ((if negative then "-" else "") ++ natText c ++ "e" ++ toString e)
  | .infinite negative => some (if negative then "-inf" else "inf")
  | .nan _ _ _ => Option.none

/-- The value of a decimal number read from text, or from an integer or a double. -/
def decimalOf (source : Datum) : Except BuildError Datum := do
  let d ← match source with
    | .text s => match DecimalNumber.read? s with
      | some d => pure d
      | none => throw .invalidDecimal
    | .int n => pure (DecimalNumber.ofInt n)
    | .bool b => pure (DecimalNumber.ofInt (if b then 1 else 0))
    | .float bits => pure (DecimalNumber.ofBits bits)
    | _ => throw .wrongType
  let shown := "Decimal(" ++ quoteText d.text ++ ")"
  pure (.printed shown ((d.key.map ("decimal:" ++ ·)).getD shown))

/-! ## Fractions -/

/-- Reads a fraction: an optional sign, then digits, optionally over a denominator, or
digits with an optional point and exponent; as a numerator and a denominator. -/
def readFraction? (s : String) : Option (Int × Nat) := do
  let cs := Text.strip s.toList
  let (negative, body) := match cs with
    | '-' :: r => (true, r)
    | '+' :: r => (false, r)
    | r => (false, r)
  let signed (n : Nat) : Int := if negative then -(n : Int) else n
  match body.idxOf? '/' with
  | some i =>
    let (n, _) ← decimalRun? (body.take i)
    let (d, _) ← decimalRun? (body.drop (i + 1))
    pure (signed n, d)
  | none =>
    let (c, e) ← DecimalNumber.read?.readDigits? body
    if e ≥ 0 then pure (signed (c * Nat.pow 10 e.toNat), 1) else pure (signed c, Nat.pow 10 (-e).toNat)

def fractionOf (source : Datum) : Except BuildError Datum := do
  let (n, d) ← match source with
    | .text s => match readFraction? s with
      | some p => pure p
      | none => throw (.invalid ("Invalid literal for Fraction: " ++ quoteText s))
    | .int n => pure (n, 1)
    | .bool b => pure (if b then 1 else 0, 1)
    | _ => throw .wrongType
  if d = 0 then throw .zeroDenominator
  let g := Nat.gcd n.natAbs d
  let key := toString (n / (g : Int)) ++ "/" ++ natText (d / g)
  pure (.named "<fractions.Fraction>" (.byValue key))

/-! ## Dates and times -/

def isLeapYear (y : Nat) : Bool := y % 4 = 0 && (y % 100 != 0 || y % 400 = 0)

def daysInMonth (y m : Nat) : Nat :=
  if m = 2 then (if isLeapYear y then 29 else 28)
  else if m = 4 || m = 6 || m = 9 || m = 11 then 30
  else 31

def dateOf (source : Datum) : Except BuildError Datum := do
  let s ← match source with
    | .text s => pure s
    | _ => throw .wrongType
  let bad : BuildError := .invalid ("Invalid isoformat string: " ++ quoteText s)
  let cs := s.toList
  let parts? : Option (Nat × Nat × Nat) :=
    if cs.length = 10 && cs[4]? == some '-' && cs[7]? == some '-' then do
      pure (← asciiNumber? (cs.take 4), ← asciiNumber? ((cs.drop 5).take 2), ← asciiNumber? (cs.drop 8))
    else if cs.length = 8 then do
      pure (← asciiNumber? (cs.take 4), ← asciiNumber? ((cs.drop 4).take 2), ← asciiNumber? (cs.drop 6))
    else Option.none
  let (y, m, d) ← match parts? with
    | some p => pure p
    | none => throw bad
  if y < 1 then throw (.invalid ("year " ++ natText y ++ " is out of range"))
  if m < 1 || m > 12 then throw (.invalid "month must be in 1..12")
  if d < 1 || d > daysInMonth y m then throw (.invalid "day is out of range for month")
  let shown := "datetime.date(" ++ natText y ++ ", " ++ natText m ++ ", " ++ natText d ++ ")"
  pure (.printed shown shown)

def twoDigits? : List Char → Option (Nat × List Char)
  | a :: b :: rest => do
    let x ← asciiDigit? a
    let y ← asciiDigit? b
    pure (10 * x + y, rest)
  | _ => Option.none

/-- The hour, minute, second and microsecond of a time written `HH[:MM[:SS[.f]]]`, where
the colons may be left out and the fraction has one to six digits. -/
def readTime? (cs : List Char) : Option (Nat × Nat × Nat × Nat) := do
  let cs := match cs with
    | 'T' :: r => r
    | r => r
  let (h, rest) ← twoDigits? cs
  if rest.isEmpty then return (h, 0, 0, 0)
  let rest := if rest.head? == some ':' then rest.drop 1 else rest
  let (m, rest) ← twoDigits? rest
  if rest.isEmpty then return (h, m, 0, 0)
  let rest := if rest.head? == some ':' then rest.drop 1 else rest
  let (sec, rest) ← twoDigits? rest
  if rest.isEmpty then return (h, m, sec, 0)
  match rest with
  | c :: frac =>
    if (c == '.' || c == ',') && 1 ≤ frac.length && frac.length ≤ 6 then
      let us ← asciiNumber? frac
      pure (h, m, sec, us * Nat.pow 10 (6 - frac.length))
    else Option.none
  | [] => Option.none

def timeOf (source : Datum) : Except BuildError Datum := do
  let s ← match source with
    | .text s => pure s
    | _ => throw .wrongType
  let (h, m, sec, us) ← match readTime? s.toList with
    | some t => pure t
    | none => throw (.invalid ("Invalid isoformat string: " ++ quoteText s))
  if h > 23 then throw (.invalid "hour must be in 0..23")
  if m > 59 then throw (.invalid "minute must be in 0..59")
  if sec > 59 then throw (.invalid "second must be in 0..59")
  let tail :=
    if us ≠ 0 then ", " ++ natText sec ++ ", " ++ natText us
    else if sec ≠ 0 then ", " ++ natText sec
    else ""
  let shown := "datetime.time(" ++ natText h ++ ", " ++ natText m ++ tail ++ ")"
  pure (.printed shown shown)

def splitWhole (x : Float) : Float × Float :=
  let whole := if x ≥ 0 then x.floor else x.ceil
  (whole, x - whole)

def wholeValue (x : Float) : Int :=
  match Datum.floatValue? x.toBits with
  | some (negative, p, q) => if negative then -((p / q : Nat) : Int) else ((p / q : Nat) : Int)
  | none => 0

def nearestWhole (x : Float) : Int :=
  match Datum.floatValue? x.toBits with
  | some (negative, p, q) =>
    let n := Decimal.roundHalfEven p q
    if negative then -(n : Int) else n
  | none => 0

/-- The microseconds of a number of seconds: exact for an integer; for a double, the
whole seconds and the fractional part scaled by a million as a double, rounded half to
even. -/
def microsecondsOf (source : Datum) : Except BuildError Int :=
  match source with
  | .int n => pure (n * 1000000)
  | .bool b => pure (if b then 1000000 else 0)
  | .float bits =>
    let x := Float.ofBits bits
    if x.isNaN then throw (.invalid "cannot convert float NaN to integer")
    else if x.isInf then throw .overflow
    else
      let (whole, frac) := splitWhole x
      pure (wholeValue whole * 1000000 + nearestWhole (frac * 1000000))
  | _ => throw .wrongType

def durationOf (source : Datum) : Except BuildError Datum := do
  let total ← microsecondsOf source
  let perDay : Int := 86400 * 1000000
  let days := total / perDay
  let rest := total % perDay
  if days.natAbs > 999999999 then throw .overflow
  let seconds := rest / 1000000
  let micro := rest % 1000000
  let parts :=
    (if days ≠ 0 then ["days=" ++ toString days] else []) ++
    (if seconds ≠ 0 then ["seconds=" ++ toString seconds] else []) ++
    (if micro ≠ 0 then ["microseconds=" ++ toString micro] else [])
  let shown := "datetime.timedelta(" ++ (if parts.isEmpty then "0" else ", ".intercalate parts) ++ ")"
  pure (.printed shown shown)

/-! ## Identifiers, paths and bytes -/

def identifierOf (source : Datum) : Except BuildError Datum := do
  let s ← match source with
    | .text s => pure s
    | _ => throw .wrongType
  let bare := ((s.replace "urn:" "").replace "uuid:" "").toList
  let bare := (bare.dropWhile (fun c => c == '\x7b' || c == '\x7d')).reverse.dropWhile (fun c => c == '\x7b' || c == '\x7d')
  let hex := bare.reverse.filter (· != '-')
  if hex.length != 32 || !hex.all (fun c => (hexDigit? c).isSome) then
    throw (.invalid "badly formed hexadecimal UUID string")
  let low := Text.lower hex
  let groups := [low.take 8, (low.drop 8).take 4, (low.drop 12).take 4, (low.drop 16).take 4, low.drop 20]
  let canonical := "-".intercalate (groups.map String.ofList)
  let shown := "UUID(" ++ quoteText canonical ++ ")"
  pure (.printed shown shown)

def pathOf (source : Datum) : Except BuildError Datum := do
  let s ← match source with
    | .text s => pure s
    | _ => throw .wrongType
  let shown := "PurePosixPath(" ++ quoteText (Path.normal s) ++ ")"
  pure (.printed shown shown)

def isHexBlank (c : Char) : Bool :=
  c == ' ' || c == '\t' || c == '\n' || c == '\r' || c == '\x0b' || c == '\x0c'

/-- The bytes of pairs of hexadecimal digits from a position, or the position of the
first character that breaks a pair. -/
def hexBytes : List Char → Nat → Except Nat (List UInt8)
  | [], _ => pure []
  | c :: rest, i =>
    if isHexBlank c then hexBytes rest (i + 1)
    else match hexDigit? c, rest with
      | some hi, d :: more =>
        match hexDigit? d with
        | some lo => do
          let tail ← hexBytes more (i + 2)
          pure (UInt8.ofNat (16 * hi + lo) :: tail)
        | none => throw (i + 1)
      | some _, [] => throw (i + 1)
      | none, _ => throw i

def bytesOf (frozen : Bool) (source : Datum) : Except BuildError Datum := do
  let s ← match source with
    | .text s => pure s
    | _ => throw .wrongType
  match hexBytes s.toList 0 with
  | .ok bs => pure (.bytes frozen bs)
  | .error i => throw (.invalid ("non-hexadecimal number found in fromhex() arg at position " ++ natText i))

/-! ## Numbers -/

/-- The double a value converts to: itself, an integer, a truth value, or a text that
writes a double. -/
def floatOf (source : Datum) : Except BuildError UInt64 :=
  match source with
  | .float bits => pure bits
  | .int n => pure (Decimal.nearestBits (decide (n < 0)) n.natAbs 0)
  | .bool b => pure (Decimal.nearestBits false (if b then 1 else 0) 0)
  | .text s => match Decimal.readBits? s with
    | some bits => pure bits
    | none => throw (.invalid ("could not convert string to float: " ++ quoteText s))
  | _ => throw .wrongType

end FlagLine.Fingerprint
