import ScriptLisp.Decimal.Text
import ScriptLisp.Integer
import ScriptLisp.Operator
import ScriptLisp.Target.Basic

/-!
Text that all targets write alike: numbers, arithmetic, and the order in which clauses are tried.
Negative numbers stand in parentheses, so that a sign never meets an operator.
-/

namespace ScriptLisp.Target

/-- Puts a token before an operand, in parentheses if the operand starts with a sign of its own. -/
def prefixed (token operand : String) : String :=
  match operand.toList with
  | '-' :: _ | '+' :: _ => token ++ "(" ++ operand ++ ")"
  | _ => token ++ operand

/-- The text of an arithmetic operator between its operands. Sums of nothing are 0 and products of
nothing are 1; of a single operand, a sum or difference keeps its sign token, and a product or
quotient is the operand itself. -/
def arithmeticText (operator : ArithmeticOperator) (token : String) : List String → String
  | [] =>
    match operator with
    | .add | .subtract => "0"
    | .multiply | .divide => "1"
  | [operand] =>
    match operator with
    | .add | .subtract => prefixed token operand
    | .multiply | .divide => operand
  | operands => "(" ++ token.intercalate operands ++ ")"

/-- An integer literal. -/
def integerText (n : Int64) : String :=
  if n < 0 then "(" ++ Integer.text n ++ ")" else Integer.text n

/-- A decimal literal. Negative zero is not less than zero. -/
def decimalText (d : Float) : String :=
  if d < 0.0 then "(" ++ Decimal.text d ++ ")" else Decimal.text d

def commas (texts : List String) : String :=
  ", ".intercalate texts

/-- A text in braces. -/
def braced (text : String) : String :=
  "\x7b " ++ text ++ " \x7d"

/-- The token of an arithmetic operator, the same in all targets. -/
def arithmeticToken : ArithmeticOperator → String
  | .add => "+"
  | .subtract => "-"
  | .multiply => "*"
  | .divide => "/"

/-- The token of an operator with one operand, the same in all targets. -/
def unaryToken : UnaryOperator → String
  | .not => "!"
  | .bitNot => "~"

/-- Moves the variadic clauses behind the fixed ones, keeping the order among each. -/
def fixedFirst {α : Type} (isVariadic : α → Bool) (clauses : List α) : List α :=
  clauses.filter (fun c => !isVariadic c) ++ clauses.filter isVariadic

/-- The texts of clauses in the order in which they are tried, which is also the order in which a
failure of one of them is met. -/
def inTrialOrder (clauses : List (Params × Except Failure String)) :
    Except Failure (List (Params × String)) :=
  (fixedFirst (·.1.isVariadic) clauses).mapM fun (params, text) => text.map (params, ·)

end ScriptLisp.Target
