import ScriptLisp.Eval.Fault
import ScriptLisp.Integer
import ScriptLisp.Value.Equality

/-!
Operators on values. Integers are computed exactly or refused; as soon as another number is
involved, everything is a decimal. An integer division that leaves a remainder gives a decimal.
-/

namespace ScriptLisp.Eval

def integer (value : Value) : Except Fault Int64 :=
  match value with
  | .integer i => .ok i
  | other => .error (.wrongType .integer other)

/-- Any number as a decimal. -/
def decimal (value : Value) : Except Fault Float :=
  match value with
  | .integer i => .ok i.toFloat
  | .rational n d => .ok (n.toFloat / d.toFloat)
  | .decimal d => .ok d
  | other => .error (.wrongType .number other)

/-- The order of two integers, two strings, or two numbers taken as decimals. -/
def order (left right : Value) : Except Fault Ordering :=
  match left, right with
  | .integer l, .integer r => .ok (compare l r)
  | .string l, .string r => .ok (compare l r)
  | left, right => do
    let l ← decimal left
    let r ← decimal right
    if l < r then return .lt
    else if l == r then return .eq
    else if r < l then return .gt
    else .error (.arithmetic .unordered)

/-- An integer that was computed exactly, if it fits. -/
def exact (result : Option Int64) : Except Fault Value :=
  match result with
  | some i => .ok (.integer i)
  | none => .error (.arithmetic .overflow)

/-- A step of arithmetic on two integers. -/
def integerStep (operator : ArithmeticOperator) (l r : Int64) : Except Fault Value :=
  match operator with
  | .add => exact (Integer.add? l r)
  | .subtract => exact (Integer.sub? l r)
  | .multiply => exact (Integer.mul? l r)
  | .divide =>
    if r = 0 then .error (.arithmetic .divisionByZero)
    else if l.toInt.tmod r.toInt = 0 then exact (Integer.div? l r)
    else .ok (.decimal (l.toFloat / r.toFloat))

/-- A step of arithmetic on two decimals. -/
def decimalStep (operator : ArithmeticOperator) (l r : Float) : Float :=
  match operator with
  | .add => l + r
  | .subtract => l - r
  | .multiply => l * r
  | .divide => l / r

/-- A step of arithmetic on two numbers. -/
def arithmeticStep (operator : ArithmeticOperator) (left right : Value) : Except Fault Value :=
  match left, right with
  | .integer l, .integer r => integerStep operator l r
  | left, right => do
    let l ← decimal left
    let r ← decimal right
    return .decimal (decimalStep operator l r)

/-- An operand that must be a number. -/
def number (value : Value) : Except Fault Value :=
  if value.isNumber then .ok value else .error (.wrongType .number value)

/-- Arithmetic on operands from left to right. No operands give the neutral one of sums or
products; a difference of one operand is its negation, and any other single operand is itself. -/
def arithmetic (operator : ArithmeticOperator) (operands : List Value) : Except Fault Value :=
  match operator, operands with
  | .add, [] | .subtract, [] => .ok (.integer 0)
  | .multiply, [] | .divide, [] => .ok (.integer 1)
  | .subtract, [operand] => arithmeticStep .subtract (.integer 0) operand
  | _, [operand] => number operand
  | operator, first :: rest => do
    let first ← number first
    rest.foldlM (arithmeticStep operator) first

/-- The remainder of a division toward zero. The one division of words whose quotient does not fit
is refused like a division by zero. -/
def remainder (l r : Int64) : Except Fault Int64 :=
  if r = 0 ∨ (l = Int64.minValue ∧ r = -1) then .error (.arithmetic .divisionByZero)
  else .ok (Int64.ofInt (l.toInt.tmod r.toInt))

/-- The operators that take two integers. -/
def integerOperation (operator : BinaryOperator) (l r : Int64) : Except Fault Int64 :=
  match operator with
  | .modulo => remainder l r
  | .bitAnd => .ok (l &&& r)
  | .bitOr => .ok (l ||| r)
  | .bitXor => .ok (l ^^^ r)
  | .bitShiftLeft => .ok (l <<< r)
  | .bitShiftRight => .ok (l >>> r)
  | _ => .ok (Integer.unsignedShiftRight l r)

/-- An operator on two values. The connectives and the type test are not decided by values alone
and are no cases here. -/
def binary (operator : BinaryOperator) (left right : Value) : Except Fault Value :=
  match operator with
  | .equal => .ok (.boolean (left.equal right))
  | .notEqual => .ok (.boolean (!left.equal right))
  | .identical => .ok (.boolean (left.identical right))
  | .lessThan => return .boolean (← order left right).isLT
  | .lessThanOrEqual => return .boolean (← order left right).isLE
  | .greaterThan => return .boolean (← order left right).isGT
  | .greaterThanOrEqual => return .boolean (← order left right).isGE
  | operator => do
    let l ← integer left
    let r ← integer right
    return .integer (← integerOperation operator l r)

def unary (operator : UnaryOperator) (operand : Value) : Except Fault Value :=
  match operator with
  | .not => .ok (.boolean !operand.isTruthy)
  | .bitNot => return .integer (~~~(← integer operand))

end ScriptLisp.Eval
