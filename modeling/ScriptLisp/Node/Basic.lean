import ScriptLisp.Intern
import ScriptLisp.Operator

/-!
Nodes: programs that are understood. Every form that makes sense as code is one node; names of
bindings are already spelled for the target, and literals that have canonical instances hold them.
-/

namespace ScriptLisp

/-- A reference to a binding, spelled for the target. -/
structure Variable where
  qualifier : Option String
  base : String
deriving DecidableEq, Repr, Inhabited

namespace Variable

def display (v : Variable) : String :=
  match v.qualifier with
  | some qualifier => qualifier ++ "/" ++ v.base
  | none => v.base

/-- Splits at every dot; between and around dots there may be empty parts. -/
def splitDots : List Char → List (List Char)
  | [] => [[]]
  | '.' :: cs => [] :: splitDots cs
  | c :: cs =>
    match splitDots cs with
    | part :: parts => (c :: part) :: parts
    | [] => [[c]]

/-- The parts of the qualifier between its dots; no parts without a qualifier. -/
def segments (v : Variable) : List String :=
  match v.qualifier with
  | some qualifier => (splitDots qualifier.toList).map String.ofList
  | none => []

end Variable

/-- The parameters of a function: some required ones, and a name for all others if more are
accepted. -/
structure Params where
  fixed : List Variable
  rest : Option Variable
deriving DecidableEq, Repr, Inhabited

namespace Params

def isVariadic (params : Params) : Bool :=
  params.rest.isSome

/-- The number of arguments that must be given. -/
def required (params : Params) : Nat :=
  params.fixed.length

/-- Whether a call with this number of arguments binds the parameters. -/
def accepts (params : Params) (count : Nat) : Bool :=
  if params.isVariadic then params.required ≤ count else count == params.required

end Params

mutual

/-- An understood piece of program. -/
inductive Node where
  | nil (literal : Interned Unit)
  | boolean (literal : Interned Bool)
  | integer (literal : Interned Int64)
  | rational (numerator denominator : Int64)
  | decimal (value : Float)
  | string (literal : Interned String)
  | keyword (literal : Interned Name)
  | symbol (literal : Interned Name)
  | vector (elements : List Node)
  | map (entries : List (Node × Node))
  | set (elements : List Node)
  | list (elements : List Node)
  /-- The value of a binding. -/
  | reference (name : Variable)
  | definition (name : Variable) (value : Node)
  /-- Tests with their consequents, tried in order, and what holds when no test does. -/
  | conditional (branches : List (Node × Node)) (otherwise : Node)
  | lambda (function : Lambda)
  | block (body : List Node)
  | loop (bindings : List (Variable × Node)) (body : List Node)
  /-- Goes back to the closest loop or function with new values. -/
  | recursionPoint (args : List Node)
  /-- A body with a handler that binds what was thrown, and a part that always runs. -/
  | exceptionHandler (body : List Node) (handler : Option (Variable × List Node))
      (cleanup : Option (List Node))
  | exception (expression : Node)
  | classInstantiation (constructor : Node) (args : List Node)
  | methodResolution (object : Node) (method : Variable) (args : List Node)
  | propertyResolution (object : Node) (property : Variable)
  | assignment (target value : Node)
  /-- A call, and whether its value is the value of the function or branch around it. -/
  | application (invocable : Node) (args : List Node) (tail : Bool)
  | binary (operator : BinaryOperator) (left right : Node)
  | unary (operator : UnaryOperator) (operand : Node)
  | arithmetic (operator : ArithmeticOperator) (args : List Node)
  /-- A macro under the name it is used by. -/
  | macroDefinition (name : Name) (function : Lambda)
  | typeDefinition (name : Variable) (attributes protocols : List Variable)
      (methods : List Method)
  | protocolDefinition (name : Variable) (protocols : List Variable) (methods : List Method)

/-- A function: one clause, or several that are told apart by the number of arguments. -/
inductive Lambda where
  | single (clause : Clause)
  | multi (clauses : List Clause)

inductive Clause where
  | mk (params : Params) (body : List Node)

/-- A method of a type or protocol; the receiver is no parameter. -/
inductive Method where
  | mk (name : Variable) (params : Params) (body : List Node)

end

instance : Inhabited Node := ⟨.nil ⟨0, ()⟩⟩

namespace Clause

def params : Clause → Params
  | .mk params _ => params

def body : Clause → List Node
  | .mk _ body => body

end Clause

namespace Method

def name : Method → Variable
  | .mk name _ _ => name

def params : Method → Params
  | .mk _ params _ => params

def body : Method → List Node
  | .mk _ _ body => body

end Method

namespace Lambda

def clauses : Lambda → List Clause
  | .single clause => [clause]
  | .multi clauses => clauses

/-- The clause that takes a number of arguments: a fixed one if there is any, else a variadic
one. -/
def clauseFor? (function : Lambda) (count : Nat) : Option Clause :=
  (function.clauses.find? fun c => !c.params.isVariadic && c.params.accepts count).or
    (function.clauses.find? fun c => c.params.accepts count)

end Lambda

end ScriptLisp
