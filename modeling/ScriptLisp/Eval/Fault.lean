import ScriptLisp.Node.Kind
import ScriptLisp.Value.Display

/-!
Why an evaluation fails, and the message of each reason. A thrown value is a reason like any other;
a handler sees the thrown value itself, and the message of every other reason.
-/

namespace ScriptLisp.Eval

/-- What a procedure or operator asks of an operand. -/
inductive Demand where
  | sequence
  | collection
  | entry
  | number
  | integer
  | integerIndex
  | string
  | nameable
  | symbolOrKeyword
  | stringPrefix
deriving DecidableEq, Repr

def Demand.describe : Demand → String
  | sequence => "a sequence"
  | collection => "a collection"
  | entry => "a [key value] entry"
  | number => "a number"
  | integer => "an integer"
  | integerIndex => "an integer index"
  | string => "a string"
  | nameable => "a symbol, keyword or string"
  | symbolOrKeyword => "a symbol or keyword"
  | stringPrefix => "a string prefix"

/-- What is wrong with arguments that have the right types. -/
inductive ArgumentFault where
  | oddEntries
  | outOfBounds (index : Int64) (count : Nat)
  | procedureAsForm
deriving DecidableEq, Repr

def ArgumentFault.describe : ArgumentFault → String
  | oddEntries => "hash-map expects an even number of arguments"
  | outOfBounds index count =>
    "index " ++ Integer.text index ++ " out of bounds for a collection of " ++ toString count
      ++ " elements"
  | procedureAsForm => "a procedure can't be converted into a form"

/-- What an arithmetic operation cannot answer. -/
inductive ArithmeticFault where
  | divisionByZero
  | overflow
  | unordered
deriving DecidableEq, Repr

def ArithmeticFault.describe : ArithmeticFault → String
  | divisionByZero => "division by zero"
  | overflow => "integer overflow"
  | unordered => "NaN can't be compared"

inductive Fault where
  | unbound (name : Variable)
  | arityMismatch (procedure expected : String) (got : Nat)
  | notCallable (value : Value)
  | wrongType (expected : Demand) (got : Value)
  | argument (fault : ArgumentFault)
  | arithmetic (fault : ArithmeticFault)
  | recurOutsideLoop
  /-- The construct means nothing at compile time. -/
  | unsupported (construct : NodeKind)
  /-- The operator means nothing at compile time. -/
  | unsupportedOperator (operator : BinaryOperator)
  | thrown (value : Value)

def Fault.message : Fault → String
  | unbound name => "UnboundVariable: `" ++ name.display ++ "` is not defined"
  | arityMismatch procedure expected got =>
    "ArityError: " ++ procedure ++ " expected " ++ expected ++ " arguments but received "
      ++ toString got
  | notCallable value => "ApplicationError: `" ++ value.display ++ "` is not callable"
  | wrongType expected got =>
    "ArgumentError: expected " ++ expected.describe ++ ", got `" ++ got.display ++ "`"
  | argument fault => "ArgumentError: " ++ fault.describe
  | arithmetic fault => "ArithmeticError: " ++ fault.describe
  | recurOutsideLoop => "recur is only allowed in tail position of a loop or function body"
  | unsupported construct => construct.name ++ " can't be evaluated at compile time"
  | unsupportedOperator operator => operator.name ++ " can't be evaluated at compile time"
  | thrown value => "uncaught exception: " ++ value.display

end ScriptLisp.Eval
