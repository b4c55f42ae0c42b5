/-!
# The fewest decimal digits that read back

A finite double `x` other than zero is `m · 2^q` for naturals read off its bits. The reals
that round to `x` form an interval around it, reaching half a unit of the last place to
either side (a quarter below, where `m` is a power of two above the subnormals), with its
ends included when `m` is even. For `k = 1, 2, …, 17` digits the value's two neighbours on
the grid of `k` significant digits are tested against that interval; the first `k` with a
hit wins, and of two hits the one nearer to `x`. All comparisons are exact, on naturals
scaled to a common unit.
-/

namespace FlagLine.Decimal

/-- A finite positive double as `mantissa · 2^exponent`, with the width of the rounding
interval below and above it in quarters of a unit of the last place. -/
structure Binary where
  mantissa : Nat
  exponent : Int
  lowerQuarters : Nat
  upperQuarters : Nat

def Binary.ofBits (bits : UInt64) : Binary :=
  let b : Nat := bits.toNat
  let frac : Nat := b % Nat.pow 2 52
  let e : Nat := (b / Nat.pow 2 52) % Nat.pow 2 11
  if e = 0 then ⟨frac, -1074, 2, 2⟩
  else
    let m := frac + Nat.pow 2 52
    ⟨m, (e : Int) - 1075, if frac = 0 ∧ e > 1 then 1 else 2, 2⟩

def scaledTen (n : Nat) (s : Int) : Nat × Nat :=
  if s ≥ 0 then (n * Nat.pow 10 s.toNat, 1) else (n, Nat.pow 10 (-s).toNat)

def scaledTwo (n : Nat) (q : Int) : Nat × Nat :=
  if q ≥ 0 then (n * Nat.pow 2 q.toNat, 1) else (n, Nat.pow 2 (-q).toNat)

def cmpFrac (a b : Nat × Nat) : Ordering := compare (a.1 * b.2) (b.1 * a.2)

def decimalExponent (x : Nat × Nat) : Nat → Int → Int
  | 0, e => e
  | fuel + 1, e =>
    if cmpFrac (scaledTen 1 e) x == .gt then decimalExponent x fuel (e - 1)
    else if cmpFrac (scaledTen 1 (e + 1)) x != .gt then decimalExponent x fuel (e + 1)
    else e

/-- The digits `d` and exponent `s` with `d · 10^s` the chosen decimal of `k` significant
digits, if one of the two neighbours lies in the rounding interval. -/
def neighbourHit (b : Binary) (x : Nat × Nat) (e : Int) (k : Nat) : Option (Nat × Int) :=
  let s := e - k + 1
  -- the lower neighbour on the grid of 10^s: ⌊x / 10^s⌋
  let g := scaledTen 1 s
  let lo := (x.1 * g.2) / (x.2 * g.1)
  let quarter := scaledTwo 1 (b.exponent - 2)
  let low := (x.1 * quarter.2 - b.lowerQuarters * quarter.1 * x.2, x.2 * quarter.2)
  let high := (x.1 * quarter.2 + b.upperQuarters * quarter.1 * x.2, x.2 * quarter.2)
  let closed := b.mantissa % 2 = 0
  let inside (d : Nat) : Bool :=
    let v := scaledTen d s
    let a := cmpFrac low v
    let c := cmpFrac v high
    (a == .lt || (closed && a == .eq)) && (c == .lt || (closed && c == .eq))
  let dist (d : Nat) : Nat × Nat :=
    let v := scaledTen d s
    let p := v.1 * x.2
    let r := x.1 * v.2
    (if p ≥ r then p - r else r - p, v.2 * x.2)
  match inside lo, inside (lo + 1) with
  | true, true => if cmpFrac (dist (lo + 1)) (dist lo) == .lt then some (lo + 1, s) else some (lo, s)
  | true, false => some (lo, s)
  | false, true => some (lo + 1, s)
  | false, false => none

def trimZeros : Nat → Nat × Int → Nat × Int
  | 0, p => p
  | fuel + 1, (d, s) => if d ≠ 0 ∧ d % 10 = 0 then trimZeros fuel (d / 10, s + 1) else (d, s)

/-- The fewest significant digits `d` and exponent `s` with `d · 10^s` reading back as the
positive finite double of the given bits. -/
def shortest (bits : UInt64) : Nat × Int :=
  let b := Binary.ofBits bits
  let x := scaledTwo b.mantissa b.exponent
  let e := decimalExponent x 700 0
  let rec search : Nat → Nat → Nat × Int
    | 0, _ => (0, 0)
    | fuel + 1, k =>
      match neighbourHit b x e k with
      | some p => trimZeros 20 p
      | none => search fuel (k + 1)
  search 17 1

def digitsOf (n : Nat) : List Char := (Nat.toDigits 10 n)

end FlagLine.Decimal
