import ScriptLisp.Analysis.Literal

/-!
Objects of the target: construction, methods, properties and assignment.
-/

namespace ScriptLisp.Analysis

open Session

/-- Instances `(new class argument*)`. -/
def instantiation (step : Step) (form : Form) : InSession Node := do
  match form.operands with
  | constructor :: args =>
    let constructor ← step constructor
    return .classInstantiation constructor (← inOrder step args)
  | [] => reject form .newShape

/-- The call of a method on an object. -/
def methodCall (step : Step) (object : Form) (method : String) (args : List Form) :
    InSession Node := do
  let object ← step object
  let method ← variableOf method
  return .methodResolution object method (← inOrder step args)

/-- Methods `(. object name)` or `(. object (name argument*))`. -/
def method (step : Step) (form : Form) : InSession Node := do
  match form.operands with
  | [object, .symbol name] => methodCall step object name []
  | [object, .list (.symbol name :: args)] => methodCall step object name args
  | [_, .list _] => reject form .methodCall
  | [_, _] => reject form .methodMember
  | _ => reject form .methodLength

/-- Properties `(.- object name)`. -/
def property (step : Step) (form : Form) : InSession Node := do
  match form.operands with
  | [object, .symbol name] =>
    let object ← step object
    return .propertyResolution object (← variableOf name)
  | _ => reject form .propertyShape

/-- The assignment of a value to a target that is code of some form. -/
def assigned (step : Step) (target value : Form) : InSession Node := do
  let target ← step target
  return .assignment target (← step value)

/-- Assignments `(set! target value)`, where the target is a symbol or a list. -/
def assignment (step : Step) (form : Form) : InSession Node := do
  match form.operands with
  | [.symbol name, value] => assigned step (.symbol name) value
  | [.list elements, value] => assigned step (.list elements) value
  | _ => reject form .assignmentShape

end ScriptLisp.Analysis
