import ScriptLisp.Decimal.Shortest
import ScriptLisp.Integer

/-!
Decimals as text. Digits and an exponent of ten stand for the nearest double. Writing gives the
shortest digits that read back, in the notation of `Style`.
-/

namespace ScriptLisp.Decimal

/-- Exponents outside this bound decide the result by themselves: a nonzero decimal whose first
digit stands that far from the point is infinite or zero as a double. -/
def extremePoint : Int := 400

/-- The double nearest to `digits * 10 ^ exponent`. -/
def ofDigits (negative : Bool) (digits : List Char) (exponent : Int) : Float :=
  let n := Nat.ofDigitChars 10 digits 0
  let point := (Nat.toDigits 10 n).length + exponent
  let magnitude :=
    if n = 0 ∨ point < -extremePoint then 0
    else if extremePoint < point then Binary.infinityBits
    else Binary.nearestBits (n * pow10 exponent.toNat) (pow10 (-exponent).toNat)
  let sign := if negative then pow2 63 else 0
  Float.ofBits (UInt64.ofNat (sign + magnitude))

/-- How a decimal is written. -/
structure Style where
  /-- The least point that is written positionally. -/
  leastPoint : Int
  /-- The greatest point that is written positionally; outside, a power of ten follows. -/
  greatestPoint : Int
  /-- Stands before the power of ten. -/
  exponentMark : String
  infinity : String
  notANumber : String

/-- Decimals are positional from `0.0001` up to, but without, ten to the sixteenth, and then have
at least one digit after the point; outside they are scientific, without a forced fraction. -/
def style : Style where
  leastPoint := -3
  greatestPoint := 16
  exponentMark := "e"
  infinity := "inf"
  notANumber := "NaN"

/-- A magnitude in positional notation. -/
def positional (d : Digits) : List Char :=
  let count : Int := d.digits.length
  if d.point ≤ 0 then
    '0' :: '.' :: List.replicate (-d.point).toNat '0' ++ d.digits
  else if count ≤ d.point then
    d.digits ++ List.replicate (d.point - count).toNat '0' ++ ['.', '0']
  else
    d.digits.take d.point.toNat ++ '.' :: d.digits.drop d.point.toNat

/-- A magnitude as one digit, its fraction if it has one, and a power of ten. -/
def scientific (s : Style) (d : Digits) : List Char :=
  let fraction :=
    match d.digits.drop 1 with
    | [] => []
    | rest => '.' :: rest
  d.digits.take 1 ++ fraction ++ s.exponentMark.toList ++ Integer.chars (d.point - 1)

/-- A finite magnitude in the notation its size asks for. -/
def magnitude (s : Style) (b : Binary) : List Char :=
  let d := shortest b
  if d.digits.isEmpty then ['0', '.', '0']
  else if s.leastPoint ≤ d.point ∧ d.point ≤ s.greatestPoint then positional d
  else scientific s d

/-- The text of a decimal: the shortest digits that read back as the same double. A number that is
no number has no sign. -/
def text (x : Float) : String :=
  let bits := x.toBits.toNat
  let sign := if pow2 63 ≤ bits then "-" else ""
  match Binary.ofBits? (bits % pow2 63) with
  | some b => sign ++ String.ofList (magnitude style b)
  | none =>
    if bits % pow2 63 = Binary.infinityBits then sign ++ style.infinity else style.notANumber

end ScriptLisp.Decimal
