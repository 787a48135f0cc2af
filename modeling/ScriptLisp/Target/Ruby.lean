import ScriptLisp.Node.Kind
import ScriptLisp.Target.Operand
import ScriptLisp.Text.Upper

/-!
The text of nodes in Ruby, in which nearly everything is an expression. Namespaces become nested
modules, and qualified definitions become attributes of the innermost one. Loops, going back,
handlers and types have no text; of several such constructs the first in the order of the text is
reported.
-/

namespace ScriptLisp.Ruby

open Target

/-! ### Vocabulary -/

/-- The name that holds the arguments of a function with several clauses. -/
def heldArguments : String := "__arguments__"

/-- The token between two operands. Integers have no bound, so shifting without a sign is plain
shifting. Operators that are methods have no token. -/
def binaryToken? : BinaryOperator → Option String
  | .lessThan => some "<"
  | .lessThanOrEqual => some "<="
  | .greaterThan => some ">"
  | .greaterThanOrEqual => some ">="
  | .modulo => some "%"
  | .bitAnd => some "&"
  | .bitOr => some "|"
  | .bitXor => some "^"
  | .bitShiftLeft => some "<<"
  | .bitShiftRight | .unsignedBitShiftRight => some ">>"
  | .equal => some "=="
  | .notEqual => some "!="
  | .and => some "&&"
  | .or => some "||"
  | .identical | .instanceOf => none

/-- The method of the left operand that an operator is written as. -/
def binaryMethod? : BinaryOperator → Option String
  | .identical => some "equal?"
  | .instanceOf => some "is_a?"
  | _ => none

/-- An operator with its two operands, if it has a token or a method. -/
def binaryText? (operator : BinaryOperator) (left right : String) : Option String :=
  match binaryToken? operator, binaryMethod? operator with
  | some token, _ => some ("(" ++ left ++ token ++ right ++ ")")
  | none, some method => some ("(" ++ left ++ "." ++ method ++ "(" ++ right ++ "))")
  | none, none => none

/-- How one character is written in a string literal. -/
def quotedChar : Char → List Char
  | '\\' => ['\\', '\\']
  | '\'' => ['\\', '\'']
  | c => [c]

/-- A string literal. -/
def quoted (text : String) : String :=
  String.ofList ('\'' :: text.toList.flatMap quotedChar ++ ['\''])

/-- Calls that are written as other expressions. The name is the spelled name of the callee. -/
def primitive? (name : String) (args : List String) : Option String :=
  match name, args with
  | "aget", [array, index] => some (array ++ "[" ++ index ++ "]")
  | "aset", [array, index, value] => some ("(" ++ array ++ "[" ++ index ++ "] = " ++ value ++ ")")
  | "array", _ => some ("[" ++ commas args ++ "]")
  | "str", _ => some ("[" ++ commas args ++ "].join")
  | "p", _ => some ("p(" ++ commas args ++ ")")
  | _, _ => none

/-- The name of a module: constants start with an upper-case letter. -/
def constantName (segment : String) : String :=
  match segment.toList with
  | [] => ""
  | first :: rest => String.ofList (Text.upper first ++ rest)

/-- The path of nested modules. -/
def modulePath (segments : List String) : String :=
  "::".intercalate (segments.map constantName)

/-- A variable; a qualifier is a module that has it as an attribute. -/
def variableText (v : Variable) : String :=
  match v.segments with
  | [] => v.base
  | segments => modulePath segments ++ "." ++ v.base

/-- Drops one question or exclamation mark at the end of a name. -/
def withoutMark (name : List Char) : List Char :=
  match name.getLast? with
  | some '?' | some '!' => name.dropLast
  | _ => name

/-- Whether a name needs no quotes after the colon of a symbol literal. -/
def isPlainSymbol (name : String) : Bool :=
  match withoutMark name.toList with
  | first :: rest =>
    (first.isAlpha || first == '_') && rest.all fun c => c.isAlphanum || c == '_'
  | [] => false

/-- A keyword as a symbol literal. -/
def keywordText (name : Name) : String :=
  if name.qualifier.isNone && isPlainSymbol name.base then ":" ++ name.base
  else ":" ++ quoted name.display

def symbolText (name : Name) : String :=
  match name.qualifier with
  | some qualifier => "WS::Symbol.new(" ++ quoted qualifier ++ ", " ++ quoted name.base ++ ")"
  | none => "WS::Symbol.new(nil, " ++ quoted name.base ++ ")"

/-! ### Constructs, given the texts of their parts -/

/-- The beginnings of a list that are not empty, shortest first. -/
def beginnings {α : Type} : List α → List (List α)
  | [] => []
  | a :: as => [a] :: (beginnings as).map (a :: ·)

/-- A definition. A qualified one opens every module of its qualifier, declares an accessor in the
innermost one and assigns through it. -/
def definitionText (name : Variable) (value : String) : String :=
  match name.segments with
  | [] => name.base ++ " = " ++ value
  | segments =>
    let modules := (beginnings segments).map fun path => "module " ++ modulePath path ++ "; end"
    let target := modulePath segments
    "; ".intercalate (modules ++
      [target ++ ".singleton_class.attr_accessor(:" ++ name.base ++ ")",
        target ++ "." ++ name.base ++ " = " ++ value])

/-- A sequence of expressions; those without text are left out. -/
def bodyText (expressions : List String) : String :=
  match expressions.filter (!·.isEmpty) with
  | [] => "nil"
  | expressions => "; ".intercalate expressions

def conditionalText (branches : List (String × String)) (otherwise : String) : String :=
  match branches with
  | [] => "(" ++ otherwise ++ ")"
  | _ =>
    let branch := fun ((test, consequent) : String × String) => test ++ " then " ++ consequent
    "(if " ++ " elsif ".intercalate (branches.map branch) ++ " else " ++ otherwise ++ " end)"

def functionText (params : Params) (body : String) : String :=
  let rest :=
    match params.rest with
    | some rest => ["*" ++ rest.base]
    | none => []
  match params.fixed.map (·.base) ++ rest with
  | [] => "lambda " ++ braced body
  | names => "lambda " ++ braced ("|" ++ commas names ++ "| " ++ body)

/-- The test on the number of arguments that selects a clause. -/
def clauseTest (params : Params) : String :=
  heldArguments ++ ".length " ++ (if params.isVariadic then ">= " else "== ")
    ++ toString params.required

/-- A function with several clauses, given in the order in which they are tried. -/
def dispatchText (clauses : List (Params × String)) : String :=
  let case := fun ((params, body) : Params × String) =>
    clauseTest params ++ " then " ++ functionText params body ++ "[*" ++ heldArguments ++ "]"
  "lambda " ++ braced ("|*" ++ heldArguments ++ "| if " ++ " elsif ".intercalate (clauses.map case)
    ++ " else raise(ArgumentError, \"wrong number of arguments, got: #\x7b" ++ heldArguments
    ++ ".length\x7d\") end")

def callText (invocable : String) (args : List String) : String :=
  invocable ++ "[" ++ commas args ++ "]"

/-- The inlined text of a call. -/
def inlined? (invocable : Node) (args : List String) : Option String :=
  match invocable with
  | .reference ⟨none, name⟩ => primitive? name args
  | _ => none

/-! ### Nodes -/

mutual

/-- The text of a node. -/
def emit (node : Node) : Except Failure String := do
  ruby.ensureSupported node.kind
  match node with
  | .nil _ => return "nil"
  | .boolean b => return if b.value then "true" else "false"
  | .integer i => return integerText i.value
  | .rational n d => return "Rational(" ++ Integer.text n ++ ", " ++ Integer.text d ++ ")"
  | .decimal d => return decimalText d
  | .string s => return quoted s.value
  | .keyword k => return keywordText k.value
  | .symbol s => return symbolText s.value
  | .vector es => return "WS::Vector[" ++ commas (← emitAll es) ++ "]"
  | .list es => return "WS::List[" ++ commas (← emitAll es) ++ "]"
  | .set es => return "WS::Set[" ++ commas (← emitAll es) ++ "]"
  | .map es => return "WS::Map[" ++ commas (← emitEntries es) ++ "]"
  | .reference v => return variableText v
  | .definition name value => return definitionText name (← emit value)
  | .conditional branches otherwise =>
    let otherwise ← emit otherwise
    return conditionalText (← emitBranches branches) otherwise
  | .lambda function => emitLambda function
  | .block body => return "(" ++ bodyText (← emitAll body) ++ ")"
  | .exception expression => return "raise(" ++ (← emit expression) ++ ")"
  | .classInstantiation constructor args =>
    let constructor ← emit constructor
    return constructor ++ ".new(" ++ commas (← emitAll args) ++ ")"
  | .methodResolution object method args =>
    let object ← emit object
    return object ++ "." ++ method.base ++ "(" ++ commas (← emitAll args) ++ ")"
  | .propertyResolution object property => return (← emit object) ++ "." ++ property.base
  | .assignment target value =>
    let target ← emit target
    return "(" ++ target ++ " = " ++ (← emit value) ++ ")"
  | .application invocable args _ =>
    let args ← emitAll args
    match inlined? invocable args with
    | some text => return text
    | none => return callText (← emit invocable) args
  | .binary operator left right =>
    let left ← emit left
    let right ← emit right
    match binaryText? operator left right with
    | some text => return text
    | none => throw (.unsupported node.kind ruby)
  | .unary operator operand => return "(" ++ unaryToken operator ++ (← emit operand) ++ ")"
  | .arithmetic operator args =>
    return arithmeticText operator (arithmeticToken operator) (← emitAll args)
  | .macroDefinition _ _ => return ""
  | .loop _ _ | .recursionPoint _ | .exceptionHandler _ _ _ | .typeDefinition _ _ _ _
  | .protocolDefinition _ _ _ => throw (.unsupported node.kind ruby)

def emitAll : List Node → Except Failure (List String)
  | [] => return []
  | node :: rest => do
    let text ← emit node
    return text :: (← emitAll rest)

def emitEntries : List (Node × Node) → Except Failure (List String)
  | [] => return []
  | (key, value) :: rest => do
    let key ← emit key
    let value ← emit value
    return (key ++ " => " ++ value) :: (← emitEntries rest)

def emitBranches : List (Node × Node) → Except Failure (List (String × String))
  | [] => return []
  | (test, consequent) :: rest => do
    let test ← emit test
    let consequent ← emit consequent
    return (test, consequent) :: (← emitBranches rest)

def emitLambda : Lambda → Except Failure String
  | .single (.mk params body) => return functionText params (bodyText (← emitAll body))
  | .multi clauses => return dispatchText (← inTrialOrder (emitClauses clauses))

/-- The bodies of clauses, each with its own result, since clauses are written in another order
than they are given. -/
def emitClauses : List Clause → List (Params × Except Failure String)
  | [] => []
  | .mk params body :: rest => (params, (emitAll body).map bodyText) :: emitClauses rest

end

end ScriptLisp.Ruby
