import ScriptLisp.Node.Control
import ScriptLisp.Target.Operand

/-!
The text of nodes in JavaScript. What has no expression there (conditionals, loops, handlers,
blocks) becomes a function that is called at once with the current `this`.

A loop runs its body in `while (true)`; going back throws a recursion point with the new values,
which the loop catches, rebinds and runs again, while any other exception is thrown on. A function
whose body goes back is such a loop over its parameters, and a handler in between throws recursion
points on before it runs.
-/

namespace ScriptLisp.JavaScript

open Target

/-! ### Vocabulary -/

/-- The constructor of what going back throws. -/
def recursionPoint : String := "ws.core.RecursionPoint"

/-- The name a caught recursion point is bound to. -/
def caught : String := "__recursion_point__"

/-- The name that holds the arguments of a function with several clauses that goes back. -/
def heldArguments : String := "__arguments__"

/-- The token between two operands. -/
def binaryToken : BinaryOperator → String
  | .lessThan => "<"
  | .lessThanOrEqual => "<="
  | .greaterThan => ">"
  | .greaterThanOrEqual => ">="
  | .modulo => "%"
  | .bitAnd => "&"
  | .bitOr => "|"
  | .bitXor => "^"
  | .bitShiftLeft => "<<"
  | .bitShiftRight => ">>"
  | .unsignedBitShiftRight => ">>>"
  | .identical => "==="
  | .equal => "==="
  | .notEqual => "!=="
  | .and => "&&"
  | .or => "||"
  | .instanceOf => " instanceof "

/-- How one character is written in a string literal. -/
def quotedChar : Char → List Char
  | '\\' => ['\\', '\\']
  | '\'' => ['\\', '\'']
  | '\n' => ['\\', 'n']
  | '\r' => ['\\', 'r']
  | '\t' => ['\\', 't']
  | c => [c]

/-- A string literal. -/
def quoted (text : String) : String :=
  String.ofList ('\'' :: text.toList.flatMap quotedChar ++ ['\''])

/-- The computed entries of an object literal, keys and values in turn. -/
def objectEntries : List String → List String
  | key :: value :: rest => ("[" ++ key ++ "]: " ++ value) :: objectEntries rest
  | _ => []

/-- Calls that are written as other expressions. The name is the spelled name of the callee. -/
def primitive? (name : String) (args : List String) : Option String :=
  match name, args with
  | "aget", [array, index] => some (array ++ "[" ++ index ++ "]")
  | "aset", [array, index, value] => some ("(" ++ array ++ "[" ++ index ++ "]=" ++ value ++ ")")
  | "array", _ => some ("[" ++ commas args ++ "]")
  | "str", _ => some ("[" ++ commas args ++ "].join('')")
  | "object", _ =>
    if args.length % 2 = 0 then some ("(\x7b" ++ commas (objectEntries args) ++ "\x7d)") else none
  | "__TYPEOF__", [value] => some ("(typeof " ++ value ++ ")")
  | _, _ => none

/-- The arguments that construct a keyword or symbol. -/
def nameText (name : Name) : String :=
  match name.qualifier with
  | some qualifier => quoted qualifier ++ ", " ++ quoted name.base
  | none => quoted name.base

/-- A variable; a qualifier is an object that holds it. -/
def variableText (v : Variable) : String :=
  match v.qualifier with
  | some qualifier => qualifier ++ "." ++ v.base
  | none => v.base

/-! ### Places and statements -/

/-- Where a text stands. -/
inductive Context where
  /-- On its own; statements may stand as they are. -/
  | topLevel
  | expression
  | statement
  /-- As the value of a function body. -/
  | result
deriving DecidableEq, Repr

def immediate (body : String) : String :=
  "(function()" ++ braced body ++ ").call(this)"

namespace Context

def wrap : Context → String → String
  | topLevel, text | expression, text => text
  | statement, text => text ++ ";"
  | result, text => "return " ++ text ++ ";"

/-- Throwing a value, which is a statement by itself. -/
def throwing : Context → String → String
  | expression, value => immediate ("throw " ++ value ++ ";")
  | topLevel, value => "throw " ++ value
  | statement, value | result, value => "throw " ++ value ++ ";"

/-- The objects that must exist before a qualified name can be bound: one for each step into the
qualifier after the first. -/
def nestings : List String → List String
  | [] => []
  | first :: segments =>
    (segments.foldl
      (fun (steps, path) segment =>
        let path := path ++ "." ++ segment
        (steps ++ [path ++ "=" ++ path ++ "||\x7b\x7d"], path))
      (([] : List String), first)).1

def assignments (name : Variable) (value : String) : List String :=
  nestings name.segments ++ [variableText name ++ "=" ++ value]

/-- The statement that binds a name. -/
def bindingText (name : Variable) (value : String) : String :=
  match name.qualifier with
  | none => "var " ++ name.base ++ "=" ++ value
  | some _ => ";".intercalate (assignments name value)

/-- Binding a name to a value, whose value is that of the name. -/
def binding : Context → Variable → String → String
  | topLevel, name, value => bindingText name value
  | expression, name, value => "(" ++ commas (assignments name value) ++ ")"
  | statement, name, value => bindingText name value ++ ";"
  | result, name, value => bindingText name value ++ "; return " ++ variableText name ++ ";"

def nothing : Context → String
  | topLevel | statement => ""
  | expression => wrap expression "null"
  | result => wrap result "null"

end Context

/-! ### Functions -/

/-- Complains about the number of arguments; the closing parenthesis is the caller's. -/
def arityComplaint (args : String) : String :=
  "throw new Error('wrong number of arguments, got: ' + " ++ args ++ ".length"

/-- Checks the number of arguments of a function with one clause. -/
def arityGuard (params : Params) : String :=
  let required := toString params.required
  if params.isVariadic then
    if params.required = 0 then ""
    else
      "if (arguments.length < " ++ required ++ ") "
        ++ braced (arityComplaint "arguments" ++ " + ', expected at least: " ++ required ++ "');")
        ++ " "
  else
    "if (arguments.length !== " ++ required ++ ") "
      ++ braced (arityComplaint "arguments" ++ " + ', expected: " ++ required ++ "');") ++ " "

/-- Runs a body until it returns; a recursion point rebinds and runs it again. -/
def trampoline (body : String) (rebindings : List String) : String :=
  "while (true) " ++ braced ("try " ++ braced body ++ " catch (" ++ caught ++ ") "
    ++ braced ("if (" ++ caught ++ " instanceof " ++ recursionPoint ++ ") "
      ++ braced (" ".intercalate rebindings) ++ " else " ++ braced ("throw " ++ caught ++ ";")))

/-- Takes a name's new value out of a recursion point. -/
def rebinding (index : Nat) (name : String) : String :=
  name ++ "=" ++ caught ++ ".args[" ++ toString index ++ "];"

/-- Takes the new values of all parameters out of a recursion point. -/
def rebindings (params : Params) : List String :=
  params.fixed.mapIdx (fun i p => rebinding i p.base) ++
    match params.rest with
    | some rest =>
      [rest.base ++ "=" ++ caught ++ ".args.slice(" ++ toString params.required ++ ");"]
    | none => []

def restBinding (params : Params) : String :=
  match params.rest with
  | some rest =>
    "var " ++ rest.base ++ "=Array.prototype.slice.call(arguments, " ++ toString params.required
      ++ "); "
  | none => ""

def parameterNames (params : Params) : String :=
  commas (params.fixed.map (·.base))

def functionText (params : Params) (body : String) : String :=
  "(function(" ++ parameterNames params ++ ")" ++ braced body ++ ")"

/-- A function with one clause: it checks its arguments and is the point to go back to. -/
def standaloneText (params : Params) (recurs : Bool) (body : String) : String :=
  functionText params (arityGuard params ++ restBinding params
    ++ if recurs then trampoline body (rebindings params) else body)

/-- The test on the number of arguments that selects a clause. -/
def clauseTest (args : String) (params : Params) : String :=
  args ++ ".length " ++ (if params.isVariadic then ">= " else "=== ") ++ toString params.required

/-- A function with several clauses, given with their bodies in the order in which they are tried.
Going back selects again. -/
def dispatchText (clauses : List (Params × String)) (recurs : Bool) : String :=
  let args := if recurs then heldArguments else "arguments"
  let case := fun ((params, body) : Params × String) =>
    "if (" ++ clauseTest args params ++ ") " ++ braced ("return "
      ++ functionText params (restBinding params ++ body) ++ ".apply(this, " ++ args ++ ");")
  let body := " ".intercalate (clauses.map case) ++ " " ++ arityComplaint args ++ ");"
  let body :=
    if recurs then
      "var " ++ heldArguments ++ "=arguments; "
        ++ trampoline body [heldArguments ++ "=" ++ caught ++ ".args;"]
    else body
  "(function()" ++ braced body ++ ")"

/-! ### Other constructs, given the texts of their parts -/

def conditionalText (branches : List (String × String)) (otherwise : String) : String :=
  match branches with
  | [] => immediate otherwise
  | _ =>
    let branch := fun ((test, consequent) : String × String) =>
      "if (" ++ test ++ ") " ++ braced consequent
    immediate (" else ".intercalate (branches.map branch) ++ " else " ++ braced otherwise)

/-- A loop, given its names with the texts of their initial values. -/
def loopText (bindings : List (String × String)) (body : String) : String :=
  let start := bindings.map fun (name, init) => "var " ++ name ++ "=" ++ init ++ ";"
  let again := bindings.mapIdx fun i (name, _) => rebinding i name
  immediate (" ".intercalate start ++ " " ++ trampoline body again)

/-- The part of a handler that binds what was thrown. -/
def catchText (binding body : String) : String :=
  " catch (" ++ binding ++ ") " ++ braced ("if (" ++ binding ++ " instanceof " ++ recursionPoint
    ++ ") " ++ braced ("throw " ++ binding ++ ";") ++ " " ++ body)

/-- The part of a handler that runs whatever the ending. -/
def finallyText (body : String) : String :=
  " finally " ++ braced body

/-- A handler, given the parts that follow the body. -/
def tryText (body handler cleanup : String) : String :=
  immediate ("try " ++ braced body ++ handler ++ cleanup)

def callText (invocable : String) (args : List String) : String :=
  invocable ++ "(" ++ commas args ++ ")"

/-- The inlined text of a call. -/
def inlined? (invocable : Node) (args : List String) : Option String :=
  match invocable with
  | .reference ⟨none, name⟩ => primitive? name args
  | _ => none

/-- A method; in a type, it sees the attributes as local names. -/
def methodText (attributes : List Variable) (params : Params) (body : String) : String :=
  let attributes := attributes.map fun a => "var " ++ a.base ++ "=this." ++ a.base ++ "; "
  "function(" ++ parameterNames params ++ ")"
    ++ braced (String.join attributes ++ restBinding params ++ body)

/-- A type: a constructor that sets the attributes, extended by protocols and methods. -/
def typeText (name : Variable) (attributes protocols : List Variable)
    (methods : List (Variable × String)) : String :=
  let sets := attributes.map fun a => "this." ++ a.base ++ "=" ++ a.base ++ ";"
  let start := "function " ++ name.base ++ "(" ++ commas (attributes.map (·.base)) ++ ")"
    ++ braced (" ".intercalate sets)
  let extensions := protocols.map fun p =>
    "Object.assign(" ++ name.base ++ ".prototype, " ++ variableText p ++ ");"
  let members := methods.map fun (m, text) =>
    name.base ++ ".prototype." ++ m.base ++ "=" ++ text ++ ";"
  immediate (" ".intercalate (start :: extensions ++ members ++ ["return " ++ name.base ++ ";"]))

/-- A protocol: an object with the methods of its protocols and its own. -/
def protocolText (protocols : List Variable) (methods : List (Variable × String)) : String :=
  let own := methods.map fun (m, text) => m.base ++ ": " ++ text
  "Object.assign(" ++ commas ("\x7b\x7d" :: protocols.map variableText
    ++ ["\x7b" ++ commas own ++ "\x7d"]) ++ ")"

/-! ### Nodes -/

mutual

/-- The text of a node in a place. -/
def emit (context : Context) (node : Node) : Except Failure String := do
  javascript.ensureSupported node.kind
  match node with
  | .exception expression => return context.throwing (← emit .expression expression)
  | .recursionPoint args =>
    return context.throwing ("new " ++ recursionPoint ++ "([" ++ commas (← emitAll args) ++ "])")
  | .definition name value => return context.binding name (← emit .expression value)
  | .protocolDefinition name protocols methods =>
    return context.binding name (protocolText protocols (← emitMethods [] methods))
  | .macroDefinition _ _ => return context.nothing
  | .nil _ => return context.wrap "null"
  | .boolean b => return context.wrap (if b.value then "true" else "false")
  | .integer i => return context.wrap (integerText i.value)
  | .rational n d => return context.wrap ("(" ++ integerText n ++ "/" ++ Integer.text d ++ ")")
  | .decimal d => return context.wrap (decimalText d)
  | .string s => return context.wrap (quoted s.value)
  | .keyword k => return context.wrap ("mori.keyword(" ++ nameText k.value ++ ")")
  | .symbol s => return context.wrap ("mori.symbol(" ++ nameText s.value ++ ")")
  | .vector es => return context.wrap ("mori.vector(" ++ commas (← emitAll es) ++ ")")
  | .list es => return context.wrap ("mori.list(" ++ commas (← emitAll es) ++ ")")
  | .set es => return context.wrap ("mori.set([" ++ commas (← emitAll es) ++ "])")
  | .map es => return context.wrap ("mori.hashMap(" ++ commas (← emitEntries es) ++ ")")
  | .reference v => return context.wrap (variableText v)
  | .conditional branches otherwise =>
    let otherwise ← emit .result otherwise
    return context.wrap (conditionalText (← emitBranches branches) otherwise)
  | .lambda function => return context.wrap (← emitLambda function)
  | .block body => return context.wrap (immediate (" ".intercalate (← emitBody body)))
  | .loop bindings body =>
    let bindings ← emitBindings bindings
    return context.wrap (loopText bindings (" ".intercalate (← emitBody body)))
  | .exceptionHandler body handler cleanup =>
    let body ← emitBody body
    let handler ← emitHandler handler
    let cleanup ← emitCleanup cleanup
    return context.wrap (tryText (" ".intercalate body) handler cleanup)
  | .classInstantiation constructor args =>
    let constructor ← emit .expression constructor
    return context.wrap ("(new " ++ constructor ++ "(" ++ commas (← emitAll args) ++ "))")
  | .methodResolution object method args =>
    let object ← emit .expression object
    return context.wrap (object ++ "." ++ method.base ++ "(" ++ commas (← emitAll args) ++ ")")
  | .propertyResolution object property =>
    return context.wrap ((← emit .expression object) ++ "." ++ property.base)
  | .assignment target value =>
    let target ← emit .expression target
    return context.wrap ("(" ++ target ++ "=" ++ (← emit .expression value) ++ ")")
  | .application invocable args _ =>
    let args ← emitAll args
    match inlined? invocable args with
    | some text => return context.wrap text
    | none => return context.wrap (callText (← emit .expression invocable) args)
  | .binary operator left right =>
    let left ← emit .expression left
    return context.wrap
      ("(" ++ left ++ binaryToken operator ++ (← emit .expression right) ++ ")")
  | .unary operator operand =>
    return context.wrap ("(" ++ unaryToken operator ++ (← emit .expression operand) ++ ")")
  | .arithmetic operator args =>
    return context.wrap (arithmeticText operator (arithmeticToken operator) (← emitAll args))
  | .typeDefinition name attributes protocols methods =>
    let methods ← emitMethods attributes methods
    return context.wrap (typeText name attributes protocols methods)

def emitAll : List Node → Except Failure (List String)
  | [] => return []
  | node :: rest => do
    let text ← emit .expression node
    return text :: (← emitAll rest)

def emitEntries : List (Node × Node) → Except Failure (List String)
  | [] => return []
  | (key, value) :: rest => do
    let key ← emit .expression key
    let value ← emit .expression value
    return key :: value :: (← emitEntries rest)

def emitBranches : List (Node × Node) → Except Failure (List (String × String))
  | [] => return []
  | (test, consequent) :: rest => do
    let test ← emit .expression test
    let consequent ← emit .result consequent
    return (test, consequent) :: (← emitBranches rest)

def emitBindings : List (Variable × Node) → Except Failure (List (String × String))
  | [] => return []
  | (name, init) :: rest => do
    let init ← emit .expression init
    return (name.base, init) :: (← emitBindings rest)

/-- Statements for everything but the last node, whose value is returned. Those without text are
left out. -/
def emitBody : List Node → Except Failure (List String)
  | [] => return ["return null;"]
  | [last] => return [← emit .result last]
  | node :: rest => do
    let statement ← emit .statement node
    let others ← emitBody rest
    return if statement.isEmpty then others else statement :: others

def emitStatements : List Node → Except Failure (List String)
  | [] => return []
  | node :: rest => do
    let statement ← emit .statement node
    return statement :: (← emitStatements rest)

/-- The part of a handler that binds what was thrown, if there is one. -/
def emitHandler : Option (Variable × List Node) → Except Failure String
  | some (binding, body) => return catchText binding.base (" ".intercalate (← emitBody body))
  | none => return ""

/-- The part that runs whatever the ending, if there is one. -/
def emitCleanup : Option (List Node) → Except Failure String
  | some body => return finallyText (" ".intercalate (← emitStatements body))
  | none => return ""

def emitLambda : Lambda → Except Failure String
  | .single (.mk params body) =>
    return standaloneText params (Node.anyRecurs body) (" ".intercalate (← emitBody body))
  | .multi clauses => do
    let cases ← inTrialOrder (emitClauses clauses)
    return dispatchText cases (clauses.any fun c => Node.anyRecurs c.body)

/-- The bodies of clauses, each with its own result, since clauses are written in another order
than they are given. -/
def emitClauses : List Clause → List (Params × Except Failure String)
  | [] => []
  | .mk params body :: rest => (params, (emitBody body).map (" ".intercalate ·)) :: emitClauses rest

def emitMethods (attributes : List Variable) :
    List Method → Except Failure (List (Variable × String))
  | [] => return []
  | .mk name params body :: rest => do
    javascript.ensureSupported .typeMethod
    let text := methodText attributes params (" ".intercalate (← emitBody body))
    return (name, text) :: (← emitMethods attributes rest)

end

end ScriptLisp.JavaScript
