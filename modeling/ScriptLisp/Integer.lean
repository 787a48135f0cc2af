/-!
Integers of the language: 64-bit words whose arithmetic is exact or refused. Every operation is
computed on whole numbers and accepted when the result fits; nothing wraps around.
-/

namespace ScriptLisp

namespace Integer

/-- Whether a whole number fits in 64 bits with a sign. -/
def Fits (n : Int) : Prop :=
  -9223372036854775808 ≤ n ∧ n ≤ 9223372036854775807

instance (n : Int) : Decidable (Fits n) :=
  inferInstanceAs (Decidable (_ ∧ _))

/-- The word of a whole number, if it fits. -/
def ofInt? (n : Int) : Option Int64 :=
  if Fits n then some (Int64.ofInt n) else none

def add? (a b : Int64) : Option Int64 :=
  ofInt? (a.toInt + b.toInt)

def sub? (a b : Int64) : Option Int64 :=
  ofInt? (a.toInt - b.toInt)

def mul? (a b : Int64) : Option Int64 :=
  ofInt? (a.toInt * b.toInt)

/-- The quotient of a division toward zero, if it fits; the caller excludes a zero divisor. -/
def div? (a b : Int64) : Option Int64 :=
  ofInt? (a.toInt.tdiv b.toInt)

/-- Shifts to the right and fills up with zeros, as on words without a sign. -/
def unsignedShiftRight (a b : Int64) : Int64 :=
  (a.toUInt64 >>> b.toUInt64).toInt64

/-- The digits of a whole number, after a minus sign if it is negative. -/
def chars (n : Int) : List Char :=
  if n < 0 then '-' :: Nat.toDigits 10 n.natAbs else Nat.toDigits 10 n.natAbs

/-- The text of a word. -/
def text (n : Int64) : String :=
  String.ofList (chars n.toInt)

/-- An optional sign at the start of a text, and whether it is a minus. -/
def sign : List Char → Bool × List Char
  | '+' :: cs => (false, cs)
  | '-' :: cs => (true, cs)
  | cs => (false, cs)

/-- The whole number of a sign and digits. -/
def wholeNumber (negative : Bool) (digits : List Char) : Int :=
  let n : Int := Nat.ofDigitChars 10 digits 0
  if negative then -n else n

end Integer

end ScriptLisp
