import ScriptLisp.Analysis.Function

/-!
Definitions, conditionals, loops and exceptions.
-/

namespace ScriptLisp.Analysis

open Session

/-! ### Definitions -/

/-- Definitions `(def name value?)`; without a value the name is bound to `nil`. -/
def definition (step : Step) (form : Form) : InSession Node := do
  match form.operands with
  | [.symbol name, value] =>
    let name ← variableOf name
    return .definition name (← step value)
  | [.symbol name] =>
    let name ← variableOf name
    return .definition name (← nil)
  | _ :: _ => reject form .definitionName
  | [] => reject form .definitionShape

/-! ### Conditionals -/

/-- The branches of a conditional, and what holds when no test does, if that is given. -/
structure Branches where
  tested : List (Node × Node) := []
  otherwise : Option Node := none

/-- Clauses of a conditional in order. The consequent of `:else` is what holds when no test does,
wherever it stands, and the last one counts. -/
def branches (step : Step) : List Form → Branches → InSession Branches
  | test :: consequent :: rest, found => do
    if test matches .keyword "else" then
      let consequent ← step consequent
      branches step rest { found with otherwise := some consequent.inTailPosition }
    else
      let test ← step test
      let consequent ← step consequent
      branches step rest { found with
        tested := found.tested ++ [(test, consequent.inTailPosition)] }
  | _, found => return found

/-- Conditionals `(cond test consequent ... :else alternate)`. -/
def cond (step : Step) (form : Form) : InSession Node := do
  if form.operands.length % 2 = 0 then
    let found ← branches step form.operands {}
    match found.otherwise with
    | some otherwise => return .conditional found.tested otherwise
    | none => return .conditional found.tested (← nil)
  else reject form .oddCond

/-- Conditionals `(if test consequent alternate?)`. -/
def conditional (step : Step) (form : Form) : InSession Node := do
  match form.operands with
  | [test, consequent, alternate] =>
    let test ← step test
    let consequent ← step consequent
    let alternate ← step alternate
    return .conditional [(test, consequent.inTailPosition)] alternate.inTailPosition
  | [test, consequent] =>
    let test ← step test
    let consequent ← step consequent
    return .conditional [(test, consequent.inTailPosition)] (← nil)
  | _ => reject form .ifShape

/-! ### Loops -/

/-- Names with their initial values in turn. -/
def bindings (step : Step) (form : Form) : List Form → InSession (List (Variable × Node))
  | .symbol name :: init :: rest => do
    let name ← variableOf name
    let init ← step init
    return (name, init) :: (← bindings step form rest)
  | [] => return []
  | _ => reject form .loopBindingName

/-- Loops `(loop [name init ...] body)`. -/
def loop (step : Step) (form : Form) : InSession Node := do
  match form.operands with
  | .vector names :: forms =>
    if names.length % 2 = 0 then
      let names ← bindings step form names
      return .loop names (← inOrder step forms)
    else reject form .oddLoopBindings
  | _ => reject form .loopShape

/-! ### Exceptions -/

/-- Exceptions `(throw expression)`. -/
def throwing (step : Step) (form : Form) : InSession Node := do
  match form.operands with
  | [expression] => return .exception (← step expression)
  | _ => reject form .throwShape

/-- Whether a form is a clause of a handler. -/
def isHandlerClause (form : Form) : Bool :=
  form.head? == some "catch" || form.head? == some "finally"

structure Handlers where
  handler : Option (Variable × List Node) := none
  cleanup : Option (List Node) := none

/-- Clauses of a handler in order: at most one `catch`, and after it at most one `finally`. -/
def handlers (step : Step) (form : Form) : List Form → Handlers → InSession Handlers
  | [], found => return found
  | .list (.symbol "catch" :: .symbol binding :: forms) :: rest, found => do
    if found.handler.isNone && found.cleanup.isNone then
      let binding ← variableOf binding
      let forms ← inOrder step forms
      handlers step form rest { found with handler := some (binding, forms) }
    else reject form .tryClauses
  | .list (.symbol "finally" :: forms) :: rest, found => do
    if found.cleanup.isNone then
      let forms ← inOrder step forms
      handlers step form rest { found with cleanup := some forms }
    else reject form .tryClauses
  | _, _ => reject form .tryClauses

/-- Handlers `(try body (catch name body)? (finally body)?)` with one clause at least. -/
def trying (step : Step) (form : Form) : InSession Node := do
  let forms := form.operands.takeWhile fun f => !isHandlerClause f
  let clauses := form.operands.dropWhile fun f => !isHandlerClause f
  let forms ← inOrder step forms
  let found ← handlers step form clauses {}
  if found.handler.isNone && found.cleanup.isNone then reject form .tryWithoutClause
  else return .exceptionHandler forms found.handler found.cleanup

end ScriptLisp.Analysis
