import ScriptLisp.Node.Control
import ScriptLisp.Proofs.Eval.Fuel

/-!
Conditionals with many tests and conditionals inside one another. A conditional tries its tests in
order until one holds. So does a conditional that has only the first test, if its alternate is a
conditional with the others.

* `Node.nested`: conditionals with one test each.
* `run_inTailPosition`: evaluation does not look at the mark of a call.
* `ifHolds`, `ends_ifHolds_congr`: one test, and what comes after it.
* `ends_conditional_iff_nested`: one conditional ends as those inside one another.
-/

namespace ScriptLisp

/-- Conditionals with one test each, every one the alternate of the one before. -/
def Node.nested : List (Node × Node) → Node → Node
  | [], otherwise => otherwise
  | branch :: rest, otherwise => .conditional [branch] (nested rest otherwise).inTailPosition

namespace Eval

open Stateful (Ends Steady ends_succ_iff)

/-! ### Marks -/

/-- Calls are evaluated alike whether or not they are marked. -/
theorem run_inTailPosition (fuel : Nat) (environment : Environment) (node : Node) :
    run fuel environment node.inTailPosition = run fuel environment node := by
  cases node with
  | application => cases fuel <;> rfl
  | _ => rfl

/-! ### One test -/

/-- Evaluates the consequent if the test holds, and goes on with the others if it does not. -/
def ifHolds (environment : Environment) (branch : Node × Node) (others : Nat → Evaluation Flow)
    (fuel : Nat) : Evaluation Flow := do
  let value ← valueOf (run fuel environment branch.1)
  if value.isTruthy then run fuel environment branch.2 else others fuel

section IfHolds

variable {environment : Environment} {others another : Nat → Evaluation Flow} {left : Machine}
  {ending : Except Fault Flow}

theorem ends_ifHolds_imp (branch : Node × Node) (steady : Steady another)
    (same : ∀ between, Ends others between ending left → Ends another between ending left)
    {machine : Machine} (ends : Ends (ifHolds environment branch others) machine ending left) :
    Ends (ifHolds environment branch another) machine ending left := by
  refine Ends.bind_imp (steady_eval environment branch.1) ?_ ?_ ends
  · intro value fuel
    dsimp only
    split
    · exact steady_run environment branch.2 fuel
    · exact steady fuel
  · intro value between
    cases value.isTruthy with
    | true => exact id
    | false => exact same between

/-- What comes after a test may be replaced by what ends in the same way. -/
theorem ends_ifHolds_congr (branch : Node × Node) (steady : Steady others)
    (steadyAnother : Steady another)
    (same : ∀ between, Ends others between ending left ↔ Ends another between ending left)
    (machine : Machine) :
    Ends (ifHolds environment branch others) machine ending left ↔
      Ends (ifHolds environment branch another) machine ending left :=
  ⟨ends_ifHolds_imp branch steadyAnother fun between => (same between).mp,
    ends_ifHolds_imp branch steady fun between => (same between).mpr⟩

end IfHolds

/-! ### All tests -/

section Nested

variable (environment : Environment) (branches : List (Node × Node)) (otherwise : Node)
  (machine : Machine) (ending : Except Fault Flow) (left : Machine)

theorem ends_choose_iff_nested :
    Ends (fun fuel => choose (run fuel environment) branches otherwise.inTailPosition)
        machine ending left ↔
      Ends (fun fuel => run fuel environment (.nested branches otherwise))
        machine ending left := by
  induction branches generalizing machine with
  | nil =>
    have same : ∀ fuel, choose (run fuel environment) [] otherwise.inTailPosition =
        run fuel environment otherwise := fun fuel => run_inTailPosition fuel environment otherwise
    simp only [same, Node.nested]
  | cons branch rest ih =>
    have alternate : ∀ fuel, run fuel environment (Node.nested rest otherwise).inTailPosition =
        run fuel environment (.nested rest otherwise) :=
      fun fuel => run_inTailPosition fuel environment _
    calc Ends (ifHolds environment branch fun fuel =>
            choose (run fuel environment) rest otherwise.inTailPosition)
          machine ending left
      _ ↔ Ends (ifHolds environment branch fun fuel =>
            run fuel environment (Node.nested rest otherwise).inTailPosition)
          machine ending left := by
        apply ends_ifHolds_congr branch (steady_choose environment _ _) (steady_run environment _)
        intro between
        simp only [alternate, ih]
      _ ↔ Ends (fun fuel => run fuel environment (.nested (branch :: rest) otherwise))
          machine ending left :=
        ends_succ_iff (steady_run environment (.nested (branch :: rest) otherwise)) ending left

/-- One conditional ends as the conditionals inside one another do: with the same value, request to
go back or fault, and on the same machine. -/
theorem ends_conditional_iff_nested :
    Ends (fun fuel => run fuel environment (.conditional branches otherwise.inTailPosition))
        machine ending left ↔
      Ends (fun fuel => run fuel environment (.nested branches otherwise))
        machine ending left := by
  rw [← ends_choose_iff_nested]
  exact (ends_succ_iff (steady_run environment _) ending left).symm

end Nested

end Eval

end ScriptLisp
