import ScriptLisp.Target.Basic
import ScriptLisp.Target.JavaScript
import ScriptLisp.Target.Ruby

/-!
Text of nodes for any target.
-/

namespace ScriptLisp.Target

/-- The text of a node at the top level of a program. -/
def generate (target : Target) (node : Node) : Except Failure String :=
  match target with
  | javascript => JavaScript.emit .topLevel node
  | ruby => Ruby.emit node

def generateLambda (target : Target) (function : Lambda) : Except Failure String :=
  match target with
  | javascript => JavaScript.emitLambda function
  | ruby => Ruby.emitLambda function

/-- The inlined text of a call of a primitive. -/
def primitive? (target : Target) (name : String) (args : List String) : Option String :=
  match target with
  | javascript => JavaScript.primitive? name args
  | ruby => Ruby.primitive? name args

/-- A string literal. -/
def quoted (target : Target) (text : String) : String :=
  match target with
  | javascript => JavaScript.quoted text
  | ruby => Ruby.quoted text

end ScriptLisp.Target
