import ScriptLisp.Decimal.Binary

/-!
The shortest decimal digits of a binary magnitude: of all decimals that round back to it, one with
the fewest digits, and of those the nearest. A magnitude has an interval of numbers that round to
it; on the grid of decimals with `n` digits only the two neighbours of the magnitude can be the
nearest in that interval, so the search tries 1, 2, ... digits and tests the two neighbours.
-/

namespace ScriptLisp.Decimal

/-- The decimal `0.d₁d₂… * 10 ^ point`, given by its digits as one number. -/
structure Digits where
  digits : List Char
  point : Int
deriving DecidableEq, Repr

/-- The interval of numbers that round to one magnitude, over a common denominator. -/
structure Interval where
  low : Nat
  value : Nat
  high : Nat
  denominator : Nat
  /-- Whether the two ends round to the magnitude as well. -/
  closed : Bool
deriving Repr

namespace Interval

/-- The interval of a nonzero magnitude. Below a power of two the neighbours lie at half the
distance. Ends round to even, so they belong to an even significand. -/
def ofBinary (b : Binary) : Interval :=
  let below :=
    if b.significand = Binary.fullSignificand ∧ Binary.leastExponent < b.exponent then 1 else 2
  let scale := b.exponent - 2
  let factor := pow2 scale.toNat
  { low := (4 * b.significand - below) * factor
    value := 4 * b.significand * factor
    high := (4 * b.significand + 2) * factor
    denominator := pow2 (-scale).toNat
    closed := b.significand % 2 = 0 }

/-- Whether the number `scaled / (scale * denominator)` lies in the interval. -/
def holds (i : Interval) (scaled : Nat) (scale : Nat) : Bool :=
  if i.closed then i.low * scale ≤ scaled && scaled ≤ i.high * scale
  else i.low * scale < scaled && scaled < i.high * scale

/-- The least `point` with `value < 10 ^ point`, found upwards from a lower bound. -/
def pointFrom (value denominator : Nat) : Nat → Int → Int
  | 0, p => p
  | fuel + 1, p =>
    let above :=
      if 0 ≤ p then value < denominator * pow10 p.toNat
      else value * pow10 (-p).toNat < denominator
    if above then p else pointFrom value denominator fuel (p + 1)

/-- The position of the decimal point: the least `point` with `value < 10 ^ point`. The estimate
from the binary logarithm is at most two below it. -/
def point (i : Interval) : Int :=
  let log2 : Int := i.value.log2 - i.denominator.log2
  pointFrom i.value i.denominator 4 (((log2 - 1) * 30103).fdiv 100000)

/-- The best decimal with `count` digits in the interval, in units of `10 ^ (point - count)`. Of two
neighbours the nearer one is taken, and the larger one if the value lies in their middle. -/
def onGrid? (i : Interval) (point : Int) (count : Nat) : Option Nat :=
  let unit := point - count
  -- one grid step is `step / scale` of the interval's denominator
  let step := i.denominator * pow10 unit.toNat
  let scale := pow10 (-unit).toNat
  let lower := i.value * scale / step
  let lowerHit := i.holds (lower * step) scale
  let upperHit := i.holds ((lower + 1) * step) scale
  let upperNearer := (2 * lower + 1) * step ≤ 2 * (i.value * scale)
  if upperHit && (!lowerHit || upperNearer) then some (lower + 1)
  else if lowerHit then some lower
  else none

/-- Searches the grids with `count`, `count + 1`, ... digits. -/
def search (i : Interval) (point : Int) : Nat → Nat → Nat × Int
  | 0, count => (i.value * pow10 (count - point).toNat / i.denominator, point - count)
  | fuel + 1, count =>
    match i.onGrid? point count with
    | some n => (n, point - count)
    | none => i.search point fuel (count + 1)

end Interval

/-- Drops the zeros at the end of a number's digits. -/
def significantDigits (n : Nat) : List Char :=
  ((Nat.toDigits 10 n).reverse.dropWhile (· == '0')).reverse

/-- The shortest digits of a magnitude; zero has none. Seventeen digits tell any two doubles
apart. -/
def shortest (b : Binary) : Digits :=
  if b.significand = 0 then ⟨[], 0⟩
  else
    let i := Interval.ofBinary b
    let (n, unit) := i.search i.point 17 1
    ⟨significantDigits n, (Nat.toDigits 10 n).length + unit⟩

end ScriptLisp.Decimal
