import ScriptLisp.Node.Basic

/-!
Kinds of nodes, by which a target says what it cannot express.
-/

namespace ScriptLisp

/-- The kind of a construct. Methods are parts of nodes and have a kind of their own. -/
inductive NodeKind where
  | nil
  | boolean
  | integer
  | rational
  | decimal
  | string
  | keyword
  | symbol
  | vector
  | map
  | set
  | list
  | reference
  | definition
  | conditional
  | lambda
  | block
  | loop
  | recursionPoint
  | exceptionHandler
  | exception
  | classInstantiation
  | methodResolution
  | propertyResolution
  | assignment
  | application
  | binary
  | unary
  | arithmetic
  | macroDefinition
  | typeDefinition
  | typeMethod
  | protocolDefinition
deriving DecidableEq, Repr

def NodeKind.name : NodeKind → String
  | nil => "nil"
  | boolean => "boolean"
  | integer => "integer"
  | rational => "rational"
  | decimal => "decimal"
  | string => "string"
  | keyword => "keyword"
  | symbol => "symbol"
  | vector => "vector"
  | map => "map"
  | set => "set"
  | list => "list"
  | reference => "variable"
  | definition => "definition"
  | conditional => "conditional"
  | lambda => "lambda"
  | block => "block"
  | loop => "loop"
  | recursionPoint => "recursion point"
  | exceptionHandler => "exception handler"
  | exception => "exception"
  | classInstantiation => "class instantiation"
  | methodResolution => "method resolution"
  | propertyResolution => "property resolution"
  | assignment => "assignment"
  | application => "application"
  | binary => "binary operator"
  | unary => "unary operator"
  | arithmetic => "arithmetic operator"
  | macroDefinition => "macro definition"
  | typeDefinition => "type definition"
  | typeMethod => "type method"
  | protocolDefinition => "protocol definition"

namespace Node

def kind : Node → NodeKind
  | .nil _ => .nil
  | .boolean _ => .boolean
  | .integer _ => .integer
  | .rational _ _ => .rational
  | .decimal _ => .decimal
  | .string _ => .string
  | .keyword _ => .keyword
  | .symbol _ => .symbol
  | .vector _ => .vector
  | .map _ => .map
  | .set _ => .set
  | .list _ => .list
  | .reference _ => .reference
  | .definition _ _ => .definition
  | .conditional _ _ => .conditional
  | .lambda _ => .lambda
  | .block _ => .block
  | .loop _ _ => .loop
  | .recursionPoint _ => .recursionPoint
  | .exceptionHandler _ _ _ => .exceptionHandler
  | .exception _ => .exception
  | .classInstantiation _ _ => .classInstantiation
  | .methodResolution _ _ _ => .methodResolution
  | .propertyResolution _ _ => .propertyResolution
  | .assignment _ _ => .assignment
  | .application _ _ _ => .application
  | .binary _ _ _ => .binary
  | .unary _ _ => .unary
  | .arithmetic _ _ => .arithmetic
  | .macroDefinition _ _ => .macroDefinition
  | .typeDefinition _ _ _ _ => .typeDefinition
  | .protocolDefinition _ _ _ => .protocolDefinition

end Node

end ScriptLisp
