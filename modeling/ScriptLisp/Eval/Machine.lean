import ScriptLisp.Eval.Fault

/-!
The machine that evaluates programs: global definitions, the counter of generated names and the
counter of procedure identities. Effects stay when an evaluation fails. Evaluation is bounded by an
amount of fuel, and running out of it is no failure of the program.
-/

namespace ScriptLisp

/-- Why a bounded computation ends without a result: it met a fault, or it used up its fuel, which
says nothing about it. -/
inductive Halt (ε : Type) where
  | fault (fault : ε)
  | outOfFuel
deriving Repr

namespace Eval

/-- What lasts while programs are evaluated. -/
structure Machine where
  /-- Global definitions, the latest first. -/
  globals : Environment
  /-- How many names were generated. -/
  gensyms : Nat
  /-- How many procedures were created. -/
  closures : Nat

/-- An evaluation: it may change the machine, also when it ends without a value. -/
abbrev Evaluation := ExceptT (Halt Fault) (StateM Machine)

namespace Machine

/-- Defines a variable, in place of an earlier definition. -/
def define (machine : Machine) (name : Variable) (value : Value) : Machine :=
  { machine with globals := machine.globals.set name value }

end Machine

/-- Ends an evaluation with a reason. -/
def fail {α : Type} (fault : Fault) : Evaluation α :=
  throw (.fault fault)

/-- Takes over a result that needs no machine. -/
def lift {α : Type} (result : Except Fault α) : Evaluation α :=
  match result with
  | .ok value => pure value
  | .error fault => fail fault

/-- Runs an evaluation and gives its ending as a value. -/
def observe {α : Type} (evaluation : Evaluation α) : Evaluation (Except (Halt Fault) α) :=
  fun machine =>
    let (ending, machine) := evaluation machine
    (.ok ending, machine)

/-- A name that this machine has not generated before: the start and a number. -/
def generateName (start : String) : Evaluation String := do
  modify fun machine => { machine with gensyms := machine.gensyms + 1 }
  return start ++ toString (← get).gensyms

/-- The identity of a new procedure. -/
def newIdentity : Evaluation Nat := do
  modify fun machine => { machine with closures := machine.closures + 1 }
  return (← get).closures

end Eval

end ScriptLisp
