import ScriptLisp.Proofs.Eval.Library

/-!
Evaluation keeps every discipline: allowed nodes, under allowed bindings and on a machine that holds
allowed values only, end as the discipline allows and leave such a machine again.

* `Discipline.likeness`: a discipline as a likeness, of every allowed value to itself.
* `keeps_eval`, `keeps_apply`, `keeps_enter`: the evaluator, for any fuel.
* `binds_new`: a machine at the start holds allowed values.
-/

namespace ScriptLisp.Eval.Discipline

variable {d : Discipline} {lenient : Prop}

/-! ### Allowed nodes, values and faults -/

theorem raises_of_barred {position : Position} {node : Node} {reason : Fault}
    (allowed : d.node position node) (ends : node.barred? = some reason) : d.Raises reason := by
  refine ⟨d.fault_of_barred allowed ends, ?_⟩
  rintro thrown rfl
  unfold Node.barred? at ends
  split at ends
  all_goals cases ends

theorem raises_recur {position : Position} {args : List Node}
    (allowed : d.node position (.recursionPoint args)) :
    position = .tail ∨ d.Raises .recurOutsideLoop := by
  refine (d.position_of_recur allowed).imp_right fun fails => ⟨fails, ?_⟩
  rintro thrown ⟨⟩

/-- A closure is called with the bindings that it captured, which are allowed as it is. -/
theorem callees {value : Value} (holds : d.Holds value) :
    (d.comparison lenient).Callees d.function value value := by
  have other (uncallable : value.IsUncallable) :
      (d.comparison lenient).Callees d.function value value :=
    .uncallable uncallable uncallable ⟨raises_of_ordinary trivial, rfl⟩
  cases value with
  | builtin procedure => exact .builtin procedure
  | closure identity function environment =>
    obtain ⟨allowed, captured⟩ := Value.throughout_closure.mp holds
    exact .closure (d.value_closure.mp allowed) (Binds.self captured)
  | _ => exact other trivial

/-- A handler sees the thrown value, which is allowed, or a message. -/
theorem caught {reason : Fault} (raises : d.Raises reason) :
    Option.Rel (d.comparison lenient).value (caughtValue (.error (.fault reason)))
      (caughtValue (.error (.fault reason))) := by
  cases reason with
  | recurOutsideLoop => exact .none
  | thrown value => exact .some ⟨raises.2 value rfl, rfl⟩
  | _ => exact .some ⟨holds_atom trivial rfl, rfl⟩

/-! ### Evaluation -/

variable (d lenient) in
/-- Every allowed value is like itself, and so is what is made of allowed values. -/
def likeness : Likeness where
  toComparison := d.comparison lenient
  node := d.node
  function := d.function
  node_of_parts := d.node_of_parts
  function_of_lambda := d.function_of_lambda
  node_of_function := d.node_of_function
  position_of_recur allowed := (raises_recur allowed).imp_right fun raises => ⟨raises, rfl⟩
  fault_of_barred allowed ends := ⟨raises_of_barred allowed ends, rfl⟩
  value_of_rational allowed :=
    ⟨Value.throughout_iff.mpr ⟨d.value_of_rational allowed, holdsAll_nil⟩, rfl⟩
  value_atom := by
    intro atom isAtom
    refine ⟨?_, rfl⟩
    cases atom with
    | rational | list | vector | set | map | closure => exact isAtom.elim
    | _ => exact holds_atom trivial rfl
  value_list := by
    intro first second same
    obtain ⟨holds, rfl⟩ := values_iff.mp same
    exact ⟨holds_list holds, rfl⟩
  value_vector := by
    intro first second same
    obtain ⟨holds, rfl⟩ := values_iff.mp same
    exact ⟨holds_vector holds, rfl⟩
  value_setOf := by
    intro first second same
    obtain ⟨holds, rfl⟩ := values_iff.mp same
    exact ⟨holds_setOf holds, rfl⟩
  value_mapOf := by
    intro first second same
    obtain ⟨holds, rfl⟩ := entries_iff.mp same
    exact ⟨holds_mapOf holds, rfl⟩
  value_closure := by
    rintro identity _ function environment scope rfl allowed same
    obtain ⟨bound, rfl⟩ := binds_iff.mp same
    exact ⟨Value.throughout_closure.mpr ⟨d.value_closure.mpr allowed, bound⟩, rfl⟩
  isTruthy_eq same := congrArg Value.isTruthy same.2
  callees := by
    rintro value _ ⟨holds, rfl⟩
    exact callees holds
  fault_arity _ _ _ := ⟨raises_of_ordinary trivial, rfl⟩
  fault_unbound _ := ⟨raises_of_ordinary trivial, rfl⟩
  fault_thrown := by
    rintro value _ ⟨holds, rfl⟩
    refine ⟨⟨d.fault_thrown value, ?_⟩, rfl⟩
    rintro thrown ⟨⟩
    exact holds
  caught := by
    rintro reason _ ⟨raises, rfl⟩
    exact caught raises
  elements := by
    rintro value _ ⟨holds, rfl⟩
    exact (answers_elementsOf holds).self fun _ => HoldsAll.self
  arithmetic := by
    intro operator first second same
    obtain ⟨holds, rfl⟩ := values_iff.mp same
    exact (answers_arithmetic operator holds).value
  unary := by
    rintro operator value _ ⟨-, rfl⟩
    exact (answers_unary operator value).value
  binary := by
    rintro operator left _ right _ ⟨-, rfl⟩ ⟨-, rfl⟩
    exact (answers_binary operator left right).value
  call := by
    intro procedure single args others same applyTo
    obtain ⟨holds, rfl⟩ := values_iff.mp same
    cases called : call? applyTo procedure args with
    | none => exact .none
    | some evaluation => exact .some (alike_call single holds called)

/-- An allowed node keeps the discipline under allowed bindings, whatever the fuel. -/
theorem keeps_eval (fuel : Nat) {node : Node} {environment : Environment}
    (allowed : d.node .inner node) (bound : d.Binds environment) :
    d.Keeps (eval fuel environment node) :=
  keeps_of_alike (((d.likeness False).evaluates (.inl rfl) fuel).single allowed bound.self)

/-- So does a call of an allowed value. -/
theorem keeps_apply (fuel : Nat) {callee : Value} {args : List Value} (holds : d.Holds callee)
    (holdsArgs : d.HoldsAll args) : d.Keeps (apply fuel callee args) :=
  keeps_of_alike (((d.likeness False).evaluates (.inl rfl) fuel).apply ⟨holds, rfl⟩ holdsArgs.self)

/-- So does a call of an allowed function. -/
theorem keeps_enter (fuel : Nat) {function : Lambda} {environment : Environment}
    {args : List Value} (allowed : d.function function) (bound : d.Binds environment)
    (holdsArgs : d.HoldsAll args) : d.Keeps (enter fuel function environment args) :=
  keeps_of_alike
    (((d.likeness False).evaluates (.inl rfl) fuel).enter allowed bound.self holdsArgs.self)

/-- The library holds no functions of programs, so a new machine is allowed. -/
theorem binds_new (target : Target) : d.Binds (Machine.new target).globals := by
  intro binding member
  obtain ⟨procedure, -, listed⟩ := List.mem_flatMap.mp member
  simp only [builtinBindings, List.mem_cons, List.not_mem_nil, or_false] at listed
  rcases listed with rfl | rfl
  · exact holds_atom trivial rfl
  · exact holds_atom trivial rfl

end ScriptLisp.Eval.Discipline
