import ScriptLisp.Eval.Coverage
import ScriptLisp.Eval.Run
import ScriptLisp.Session.Fault
import ScriptLisp.Target.Generate
import ScriptLisp.Value.OfForm

/-!
Sessions: what lasts from one form to the next. A session compiles for one target and holds the
canonical literals, the macros defined so far, and the machine that all its macros run on. Its
effects stay when a form fails.
-/

namespace ScriptLisp

/-- A macro: the name it is used by, the text of its function in the target, and the function. -/
structure Macro where
  name : String
  source : String
  function : Lambda

/-- The macros of a session, at most one for each name. -/
abbrev Registry := List Macro

namespace Registry

def find? (registry : Registry) (name : String) : Option Macro :=
  List.find? (·.name == name) registry

/-- Adds a macro in place of an earlier one with the same name. -/
def define (registry : Registry) (m : Macro) : Registry :=
  m :: registry.filter (·.name != m.name)

/-- The names of the macros in the order of their bytes. -/
def names (registry : Registry) : List String :=
  (registry.map (·.name)).mergeSort fun a b => a ≤ b

end Registry

/-- What lasts from one form to the next. -/
structure Session where
  target : Target
  interned : InternTable
  registry : Registry
  machine : Eval.Machine

/-- The session before its first form. -/
def Session.new (target : Target) : Session where
  target
  interned := .empty
  registry := []
  machine := .new target

/-- A step of a session. -/
abbrev InSession := ExceptT (Halt FormFault) (StateM Session)

namespace Session

def fail {α : Type} (fault : FormFault) : InSession α :=
  throw (.fault fault)

/-- Rejects a form for its shape. -/
def reject {α : Type} (form : Form) (fault : ShapeFault) : InSession α :=
  fail (.analysis (.invalidForm form fault))

/-- The variable that a name in source refers to. -/
def variableOf (name : String) : InSession Variable := do
  return (Name.parse name).toVariable (← get).target

/-- Takes an instance of a literal from the session's table. -/
def intern {α : Type} (take : InternTable → Interned α × InternTable) : InSession (Interned α) := do
  let (literal, interned) := take (← get).interned
  modify ({ · with interned })
  return literal

/-- Runs an evaluation on the session's machine. -/
def onMachine {α : Type} (evaluation : Eval.Evaluation α) :
    InSession (Except (Halt Eval.Fault) α) := do
  let (ending, machine) := evaluation (← get).machine
  modify ({ · with machine })
  return ending

/-! ### Macros -/

/-- Calls a macro with forms. -/
def callMacro (fuel : Nat) (m : Macro) (args : List Form) : InSession Form := do
  match ← onMachine (Eval.enter fuel m.function [] (args.map Value.ofForm)) with
  | .ok value =>
    match value.toForm? with
    | some form => return form
    | none => fail (.expansion (.notAForm m.name))
  | .error (.fault fault) => fail (.expansion (.invocation m.name fault))
  | .error .outOfFuel => throw .outOfFuel

/-- One round of expansion, if the head of the form names a macro. -/
def expandOnce (fuel : Nat) (form : Form) : InSession (Option Form) := do
  match form with
  | .list (.symbol head :: args) =>
    match (← get).registry.find? head with
    | some m => return some (← callMacro fuel m args)
    | none => return none
  | _ => return none

/-- Expands a form as long as its head names a macro. -/
def expandFurther : Nat → Form → InSession Form
  | 0, _ => throw .outOfFuel
  | fuel + 1, current => do
    match ← expandOnce fuel current with
    | some next => expandFurther fuel next
    | none => return current

/-- Expands the use of a macro until the head names none; `none` if it never did. -/
def expandUse (fuel : Nat) (form : Form) : InSession (Option Form) := do
  match ← expandOnce fuel form with
  | some next => return some (← expandFurther fuel next)
  | none => return none

/-- The form that a form stands for once all macros at its head are expanded. -/
def expand (fuel : Nat) (form : Form) : InSession Form := do
  return (← expandUse fuel form).getD form

/-- Defines a macro: its function needs a text in the target and must be one that can be
evaluated. -/
def defineMacro (name : Name) (function : Lambda) : InSession Unit := do
  match (← get).target.generateLambda function with
  | .error fault => fail (.generation fault)
  | .ok source =>
    match Eval.uncoveredInLambda? function with
    | some construct => fail (.expansion (.loading name.display construct))
    | none =>
      modify fun session =>
        { session with registry := session.registry.define ⟨name.display, source, function⟩ }

end Session

end ScriptLisp
