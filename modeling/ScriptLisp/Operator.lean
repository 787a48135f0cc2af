/-!
Operators of the language. An operator takes two operands, one, or any number of them, and its
source name decides which.
-/

namespace ScriptLisp

/-- Operators with two operands. -/
inductive BinaryOperator where
  | lessThan
  | lessThanOrEqual
  | greaterThan
  | greaterThanOrEqual
  | modulo
  | bitAnd
  | bitOr
  | bitXor
  | bitShiftLeft
  | bitShiftRight
  | unsignedBitShiftRight
  | identical
  | equal
  | notEqual
  | and
  | or
  | instanceOf
deriving DecidableEq, Repr

inductive UnaryOperator where
  | not
  | bitNot
deriving DecidableEq, Repr

/-- Operators with any number of operands, taken from left to right. -/
inductive ArithmeticOperator where
  | add
  | subtract
  | multiply
  | divide
deriving DecidableEq, Repr

namespace BinaryOperator

def all : List BinaryOperator :=
  [lessThan, lessThanOrEqual, greaterThan, greaterThanOrEqual, modulo, bitAnd, bitOr, bitXor,
    bitShiftLeft, bitShiftRight, unsignedBitShiftRight, identical, equal, notEqual, and, or,
    instanceOf]

def name : BinaryOperator → String
  | lessThan => "<"
  | lessThanOrEqual => "<="
  | greaterThan => ">"
  | greaterThanOrEqual => ">="
  | modulo => "mod"
  | bitAnd => "bit-and"
  | bitOr => "bit-or"
  | bitXor => "bit-xor"
  | bitShiftLeft => "bit-shift-left"
  | bitShiftRight => "bit-shift-right"
  | unsignedBitShiftRight => "unsigned-bit-shift-right"
  | identical => "identical?"
  | equal => "="
  | notEqual => "not="
  | and => "and"
  | or => "or"
  | instanceOf => "instance?"

/-- The operator with two operands that has a source name. -/
def ofName? (name : String) : Option BinaryOperator :=
  all.find? (·.name == name)

end BinaryOperator

namespace UnaryOperator

def all : List UnaryOperator :=
  [not, bitNot]

def name : UnaryOperator → String
  | not => "not"
  | bitNot => "bit-not"

/-- The operator with one operand that has a source name. -/
def ofName? (name : String) : Option UnaryOperator :=
  all.find? (·.name == name)

end UnaryOperator

namespace ArithmeticOperator

def all : List ArithmeticOperator :=
  [add, subtract, multiply, divide]

def name : ArithmeticOperator → String
  | add => "+"
  | subtract => "-"
  | multiply => "*"
  | divide => "/"

/-- The operator with any number of operands that has a source name. -/
def ofName? (name : String) : Option ArithmeticOperator :=
  all.find? (·.name == name)

/-- The neutral operand of an operator, if it has one on both sides. -/
def identity? : ArithmeticOperator → Option Int
  | add => some 0
  | multiply => some 1
  | _ => none

end ArithmeticOperator

/-- Any operator, found by its source name. -/
inductive Operator where
  | binary (operator : BinaryOperator)
  | unary (operator : UnaryOperator)
  | arithmetic (operator : ArithmeticOperator)
deriving DecidableEq, Repr

namespace Operator

/-- The operator that has a source name. No name stands for two of them. -/
def ofName? (name : String) : Option Operator :=
  ((BinaryOperator.ofName? name).map binary).or
    (((UnaryOperator.ofName? name).map unary).or
      ((ArithmeticOperator.ofName? name).map arithmetic))

def names : List String :=
  BinaryOperator.all.map (·.name) ++ UnaryOperator.all.map (·.name)
    ++ ArithmeticOperator.all.map (·.name)

end Operator

end ScriptLisp
