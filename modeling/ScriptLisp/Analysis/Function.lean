import ScriptLisp.Analysis.Literal
import ScriptLisp.Node.Control

/-!
Functions: parameters, bodies, and the rules for several clauses. At most one clause is variadic,
no two fixed clauses take the same number of arguments, and no fixed clause takes more than the
variadic one requires; so for every number of arguments there is one clause to take.
-/

namespace ScriptLisp.Analysis

open Session

/-- A body whose last value is the value of the function. -/
def body (step : Step) (forms : List Form) : InSession (List Node) :=
  return Node.lastInTailPosition (← inOrder step forms)

/-- Parameters, of which `&` announces the one for all further arguments. `form` is what a fault
is reported for. -/
def params (form : Form) : List Form → InSession Params
  | [] => return ⟨[], none⟩
  | .symbol name :: remaining => do
    if name = "&" then
      match remaining with
      | [] => reject form .missingRest
      | [.symbol rest] =>
        if rest = "&" then reject form .parametersAfterRest
        else return ⟨[], some (← variableOf rest)⟩
      | _ => reject form .parametersAfterRest
    else
      let parameter ← variableOf name
      let others ← params form remaining
      return ⟨parameter :: others.fixed, others.rest⟩
  | _ => reject form .parameterName

/-- Parameters with the body that follows them. -/
def clause (step : Step) (form : Form) (parameters forms : List Form) : InSession Clause := do
  let parameters ← params form parameters
  return .mk parameters (← body step forms)

/-- The first rule for several clauses that some parameters break. -/
def arityFault? (clauses : List Params) : Option ShapeFault :=
  let variadic := clauses.filter (·.isVariadic)
  if 1 < variadic.length then some .severalVariadic
  else check variadic.head? [] (clauses.filter fun p => !p.isVariadic)
where
  check (variadic : Option Params) (seen : List Nat) : List Params → Option ShapeFault
    | [] => none
    | p :: rest =>
      if seen.contains p.required then some .sameArity
      else if variadic.any fun v => v.required < p.required then some .fixedAboveVariadic
      else check variadic (seen ++ [p.required]) rest

/-- Clauses in order, each a list that starts with its parameters. -/
def clauses (step : Step) (form : Form) : List Form → InSession (List Clause)
  | [] => return []
  | .list (.vector parameters :: forms) :: rest => do
    let first ← clause step form parameters forms
    return first :: (← clauses step form rest)
  | _ => reject form .clauseShape

/-- A function, given what follows its head. -/
def function (step : Step) (form : Form) (definition : List Form) : InSession Lambda := do
  match definition with
  | .vector parameters :: forms => return .single (← clause step form parameters forms)
  | .list _ :: _ =>
    let clauses ← clauses step form definition
    match arityFault? (clauses.map (·.params)) with
    | some fault => reject form fault
    | none => return .multi clauses
  | _ => reject form .functionShape

end ScriptLisp.Analysis
