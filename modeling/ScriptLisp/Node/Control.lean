import ScriptLisp.Node.Basic

/-!
Where control goes in a node: which nodes give a value, which calls are in tail position, and which
nodes go back to the loop or function around them.
-/

namespace ScriptLisp.Node

/-- Whether a node gives a value. Throwing and going back transfer control instead. -/
def isReturnable : Node → Bool
  | .exception _ => false
  | .recursionPoint _ => false
  | _ => true

/-- Marks a call as one in tail position. -/
def inTailPosition : Node → Node
  | .application invocable args _ => .application invocable args true
  | node => node

/-- Marks the last node of a body. -/
def lastInTailPosition : List Node → List Node
  | [] => []
  | [last] => [last.inTailPosition]
  | node :: rest => node :: lastInTailPosition rest

mutual

/-- Whether a node goes back to the loop or function around it. The bodies of loops and functions
are points to go back to themselves. -/
def recurs : Node → Bool
  | .recursionPoint _ => true
  | .vector nodes | .set nodes | .list nodes => anyRecurs nodes
  | .map entries => anyEntryRecurs entries
  | .definition _ value => recurs value
  | .conditional branches otherwise => anyEntryRecurs branches || recurs otherwise
  | .block body => anyRecurs body
  | .loop bindings _ => anyBindingRecurs bindings
  | .exceptionHandler body handler cleanup =>
    anyRecurs body ||
      (match handler with
        | some (_, body) => anyRecurs body
        | none => false) ||
      (match cleanup with
        | some body => anyRecurs body
        | none => false)
  | .exception expression => recurs expression
  | .classInstantiation constructor args => recurs constructor || anyRecurs args
  | .methodResolution object _ args => recurs object || anyRecurs args
  | .propertyResolution object _ => recurs object
  | .assignment target value => recurs target || recurs value
  | .application invocable args _ => recurs invocable || anyRecurs args
  | .binary _ left right => recurs left || recurs right
  | .unary _ operand => recurs operand
  | .arithmetic _ args => anyRecurs args
  | _ => false

def anyRecurs : List Node → Bool
  | [] => false
  | node :: rest => recurs node || anyRecurs rest

def anyEntryRecurs : List (Node × Node) → Bool
  | [] => false
  | (first, second) :: rest => recurs first || recurs second || anyEntryRecurs rest

def anyBindingRecurs : List (Variable × Node) → Bool
  | [] => false
  | (_, init) :: rest => recurs init || anyBindingRecurs rest

end

end ScriptLisp.Node
