import ScriptLisp.Proofs.Eval.Keeping

/-!
Evaluation with more fuel. Wherever the evaluator uses its fuel up, it ends; it never looks at how
much is left. So more fuel only lets it go on. A handler is no way around this, since running out is
not handled. And whatever the fuel, all that an evaluation changes of a machine it changes in steps.

* `anything`, `anything.comparison`: everything is allowed, and like itself.
* `anything.approximates`: evaluations that are alike in this way do the same until the first one
  runs out of fuel.
* `steady_eval`, `steady_enter`, ...: evaluation and calls do the same with more fuel.
* `steps_eval`: evaluation takes a machine only through steps.
* `EvaluatesTo`: how the evaluation of a node ends, however much fuel that takes.
-/

namespace ScriptLisp.Eval

open Discipline (likeness)
open Stateful (Approximates Ends Steady)

/-! ### The same with more fuel -/

/-- All nodes, functions, values and faults are allowed. -/
def anything : Discipline where
  node _ _ := True
  function _ := True
  value _ := True
  fault _ := True
  node_of_parts _ _ _ := trivial
  function_of_lambda _ := trivial
  node_of_function _ _ _ := trivial
  position_of_recur _ := .inr trivial
  fault_of_barred _ _ := trivial
  value_of_rational _ := trivial
  value_closure := Iff.rfl
  value_plain _ := trivial
  value_emptySet := trivial
  value_emptyMap := trivial
  value_adjoin _ _ := trivial
  value_insert _ _ _ := trivial
  fault_ordinary _ := trivial
  fault_thrown _ := trivial

namespace anything

/-- Everything is like itself, and the first evaluation may run out of fuel before the second. -/
abbrev comparison : Comparison :=
  Discipline.comparison anything True

theorem binds_self (environment : Environment) : comparison.Binds environment environment :=
  Discipline.Binds.self fun _ _ _ _ => trivial

theorem values_self (values : List Value) : comparison.Values values values :=
  Discipline.HoldsAll.self fun _ _ _ _ => trivial

theorem machines_self (machine : Machine) : comparison.Machines machine machine :=
  ⟨binds_self _, rfl, rfl⟩

/-- Calls of the evaluator are alike with one more unit of fuel. -/
theorem evaluates_more (fuel : Nat) : (likeness anything True).Evaluates fuel (fuel + 1) :=
  (likeness anything True).evaluates (.inr trivial) fuel

/-- Evaluations that are alike in this way do the same until the first one runs out of fuel. -/
theorem approximates {α : Type} {kind : comparison.Kind α α} {less more : Evaluation α}
    (same : comparison.Alike kind less more)
    (equal : ∀ first second, kind.alike first second → first = second) :
    Approximates less more := by
  intro machine
  obtain ⟨-, agree⟩ := same machine machine (machines_self machine)
  generalize less machine = first, more machine = second at agree ⊢
  cases agree with
  | beyond far => exact far.elim
  | outOfFuel => exact .inl rfl
  | @ended _ _ after otherAfter endings machines =>
    obtain rfl : after = otherAfter := by
      obtain ⟨globals, gensyms, counts⟩ := machines
      cases after
      cases otherAfter
      cases (Discipline.binds_iff.mp globals).2
      cases gensyms
      cases counts
      rfl
    cases endings with
    | ok same => exact .inr (by rw [equal _ _ same])
    | fault same => exact .inr (by rw [same.2])
    | outOfFuel => exact .inl rfl

theorem approximates_values {less more : Evaluation (List Value)}
    (same : comparison.Alike .values less more) : Approximates less more :=
  approximates same fun _ _ same => (Discipline.values_iff.mp same).2

theorem approximates_value {less more : Evaluation Value}
    (same : comparison.Alike .value less more) : Approximates less more :=
  approximates same fun _ _ same => same.2

theorem approximates_flow {less more : Evaluation Flow}
    (same : comparison.Alike (.flow .tail) less more) : Approximates less more := by
  refine approximates same fun first second flows => ?_
  cases flows with
  | value same => exact congrArg Flow.value same.2
  | recur _ same => exact congrArg Flow.recur (Discipline.values_iff.mp same).2

end anything

open anything

section Steady

variable (environment : Environment)

theorem steady_run (node : Node) : Steady fun fuel => run fuel environment node :=
  fun fuel => approximates_flow ((evaluates_more fuel).run trivial (binds_self _))

theorem steady_inSequence (body : List Node) :
    Steady fun fuel => inSequence (run fuel environment) body :=
  fun fuel => approximates_flow ((evaluates_more fuel).body (fun _ _ => trivial) (binds_self _))

theorem steady_choose (branches : List (Node × Node)) (otherwise : Node) :
    Steady fun fuel => choose (run fuel environment) branches otherwise :=
  fun fuel => approximates_flow ((evaluates_more fuel).branches trivial (binds_self _))

theorem steady_values (nodes : List Node) :
    Steady fun fuel => values (run fuel environment) nodes :=
  fun fuel => approximates_values ((evaluates_more fuel).all (fun _ _ => trivial) (binds_self _))

/-- Evaluation does the same with more fuel, unless it ran out. -/
theorem steady_eval (node : Node) : Steady fun fuel => eval fuel environment node :=
  fun fuel => approximates_value ((evaluates_more fuel).single trivial (binds_self _))

theorem steady_iterate (names : List Variable) (body : List Node) :
    Steady fun fuel => iterate fuel names body environment :=
  fun fuel => approximates_value ((evaluates_more fuel).iterate (fun _ _ => trivial) (binds_self _))

/-- A call does the same with more fuel, unless it ran out. -/
theorem steady_enter (function : Lambda) (args : List Value) :
    Steady fun fuel => enter fuel function environment args :=
  fun fuel => approximates_value
    ((evaluates_more fuel).enter trivial (binds_self _) (values_self args))

/-- Evaluation takes a machine only through steps, also when it fails or runs out of fuel. -/
theorem steps_eval (fuel : Nat) (node : Node) (machine : Machine) :
    machine.Steps (eval fuel environment node machine).2 :=
  ((evaluates_more fuel).single trivial (binds_self _) _ _ (machines_self machine)).1

end Steady

/-! ### Endings -/

theorem valueOf_bind {α : Type} (first : Evaluation α) (next : α → Evaluation Flow) :
    valueOf (first >>= next) = first >>= fun result => valueOf (next result) :=
  bind_assoc first next _

theorem valueOf_pure (value : Value) : valueOf (pure (.value value)) = pure value :=
  rfl

theorem ends_lift {α : Type} (result : Except Fault α) (machine : Machine) :
    Ends (fun _ => lift result) machine result machine := by
  refine ⟨0, ?_⟩
  cases result <;> rfl

/-- Under local bindings a node evaluates to this result or fault, and leaves this machine. -/
abbrev EvaluatesTo (environment : Environment) (node : Node) (machine : Machine)
    (ending : Except Fault Value) (after : Machine) : Prop :=
  Ends (fun fuel => eval fuel environment node) machine ending after

/-- There is one way at most for an evaluation to end. -/
theorem EvaluatesTo.unique {environment : Environment} {node : Node}
    {machine first second : Machine} {ending another : Except Fault Value}
    (one : EvaluatesTo environment node machine ending first)
    (two : EvaluatesTo environment node machine another second) :
    ending = another ∧ first = second :=
  Ends.unique (steady_eval environment node) one two

end ScriptLisp.Eval
