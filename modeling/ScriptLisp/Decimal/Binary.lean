/-!
Binary floating point numbers as whole numbers times powers of two, and the rule that rounds an
exact ratio to the nearest of them. Everything here is arithmetic on `Nat`, so that reading and
printing a decimal can be reasoned about digit by digit.
-/

namespace ScriptLisp.Decimal

/-- A power of two. -/
def pow2 (n : Nat) : Nat :=
  Nat.pow 2 n

/-- A power of ten. -/
def pow10 (n : Nat) : Nat :=
  Nat.pow 10 n

/-- A finite magnitude `significand * 2 ^ exponent`. -/
structure Binary where
  significand : Nat
  exponent : Int
deriving DecidableEq, Repr

namespace Binary

/-- The least exponent of a double. -/
def leastExponent : Int := -1074

/-- The least significand of a double that uses all its bits. -/
def fullSignificand : Nat := pow2 52

/-- The bit pattern of positive infinity; every finite magnitude has a smaller one. -/
def infinityBits : Nat := 2047 * pow2 52

/-- The magnitude behind the bits of a double without its sign, `none` when it is not finite. -/
def ofBits? (bits : Nat) : Option Binary :=
  let field : Nat := bits / pow2 52
  let fraction : Nat := bits % pow2 52
  if field = 0 then some ⟨fraction, leastExponent⟩
  else if field < 2047 then some ⟨fullSignificand + fraction, leastExponent + (field - 1)⟩
  else none

/-- Whether the ratio of two positive numbers is at least `2 ^ e`. -/
def atLeastPower (numerator denominator : Nat) (e : Int) : Bool :=
  if 0 ≤ e then denominator * pow2 e.toNat ≤ numerator
  else denominator ≤ numerator * pow2 (-e).toNat

/-- The exponent at which the significand of the ratio fills a double, or the least one. -/
def scaleOf (numerator denominator : Nat) : Int :=
  let guess : Int := numerator.log2 - denominator.log2
  let magnitude := if atLeastPower numerator denominator guess then guess else guess - 1
  max leastExponent (magnitude - 52)

/-- Rounds a quotient to the nearest whole number, a half to the even neighbour. -/
def roundToEven (numerator denominator : Nat) : Nat :=
  let quotient := numerator / denominator
  let remainder := numerator % denominator
  if denominator < 2 * remainder then quotient + 1
  else if 2 * remainder = denominator then quotient + quotient % 2
  else quotient

/-- The bits of the double nearest to a ratio of natural numbers, a half going to the even
neighbour. A ratio beyond the largest double gives infinity. A significand that rounds up to the
next power of two carries into the exponent field, which is the right double again. -/
def nearestBits (numerator denominator : Nat) : Nat :=
  if numerator = 0 then 0
  else
    let scale := scaleOf numerator denominator
    let significand :=
      if 0 ≤ scale then roundToEven numerator (denominator * pow2 scale.toNat)
      else roundToEven (numerator * pow2 (-scale).toNat) denominator
    min infinityBits ((scale - leastExponent).toNat * pow2 52 + significand)

end Binary

end ScriptLisp.Decimal
