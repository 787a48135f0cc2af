import ScriptLisp.Proofs.Eval.Comparison

/-!
Evaluation keeps what is alike. A likeness is a comparison with the laws that evaluation relies on:
which nodes may stand where, that what is made of parts that are alike is alike, and that operators
and library procedures answer alike. The evaluator is walked here, once for all likenesses: the
combinators come out alike when the steps they are given do, a node does when its parts do, and a
call of less fuel is what every part gets, so the rest is induction on the fuel.

* `Likeness`: a comparison and its laws.
* `alike_values`, `alike_choose`, `alike_handled`, ...: the combinators.
* `alike_call`: calls of library procedures, also of the one that calls others.
* `Evaluates.run_succ`, `Evaluates.enter_succ`, ...: one call of the evaluator, given those that it
  makes with less fuel.
* `evaluates`: the evaluator, with any fuel in one place and, if that is allowed, more in the other.
-/

namespace ScriptLisp

/-- Values without parts that are made without a condition. -/
def Value.IsAtom : Value → Prop
  | .rational _ _ | .list _ | .vector _ | .set _ | .map _ | .closure _ _ _ => False
  | _ => True

/-- Values that no call is for. -/
def Value.IsUncallable : Value → Prop
  | .builtin _ | .closure _ _ _ => False
  | _ => True

open Eval in
/-- The fault that a node without a meaning at compile time ends in. -/
def Node.barred? : Node → Option Fault
  | .binary .instanceOf _ _ => some (.unsupportedOperator .instanceOf)
  | .classInstantiation _ _ => some (.unsupported .classInstantiation)
  | .methodResolution _ _ _ => some (.unsupported .methodResolution)
  | .propertyResolution _ _ => some (.unsupported .propertyResolution)
  | .assignment _ _ => some (.unsupported .assignment)
  | .macroDefinition _ _ => some (.unsupported .macroDefinition)
  | .typeDefinition _ _ _ _ => some (.unsupported .typeDefinition)
  | .protocolDefinition _ _ _ => some (.unsupported .protocolDefinition)
  | _ => none

namespace Eval

/-! ### Likenesses -/

/-- Two values that are called alike. -/
inductive Comparison.Callees (c : Comparison) (function : Lambda → Prop) : Value → Value → Prop
  | builtin (procedure : Builtin) : Callees c function (.builtin procedure) (.builtin procedure)
  | closure {identity other : Nat} {called : Lambda} {environment scope : Environment}
      (allowed : function called) (bound : c.Binds environment scope) :
      Callees c function (.closure identity called environment) (.closure other called scope)
  | uncallable {first second : Value} (notFirst : first.IsUncallable)
      (notSecond : second.IsUncallable)
      (same : c.fault (.notCallable first) (.notCallable second)) : Callees c function first second

/-- Which nodes may stand where, and which functions may occur, so that a comparison is kept. -/
structure Likeness extends Comparison where
  node : Position → Node → Prop
  function : Lambda → Prop
  node_of_parts {position : Position} {whole : Node} (allowed : node position whole) :
    ∀ part ∈ whole.parts position, node part.1 part.2
  function_of_lambda {position : Position} {created : Lambda}
    (allowed : node position (.lambda created)) : function created
  node_of_function {called : Lambda} (allowed : function called) :
    ∀ part ∈ called.parts, node part.1 part.2
  position_of_recur {position : Position} {args : List Node}
    (allowed : node position (.recursionPoint args)) :
    position = .tail ∨ fault .recurOutsideLoop .recurOutsideLoop
  fault_of_barred {position : Position} {barred : Node} {reason : Fault}
    (allowed : node position barred) (ends : barred.barred? = some reason) : fault reason reason
  value_of_rational {position : Position} {numerator denominator : Int64}
    (allowed : node position (.rational numerator denominator)) :
    value (.rational numerator denominator) (.rational numerator denominator)
  value_atom {atom : Value} (isAtom : atom.IsAtom) : value atom atom
  value_list {first second : List Value} (same : toComparison.Values first second) :
    value (.list first) (.list second)
  value_vector {first second : List Value} (same : toComparison.Values first second) :
    value (.vector first) (.vector second)
  value_setOf {first second : List Value} (same : toComparison.Values first second) :
    value (Value.setOf first) (Value.setOf second)
  value_mapOf {first second : List (Value × Value)} (same : toComparison.Entries first second) :
    value (Value.mapOf first) (Value.mapOf second)
  value_closure {first second : Nat} {held : Lambda} {environment scope : Environment}
    (same : identity first second) (allowed : function held)
    (bound : toComparison.Binds environment scope) :
    value (.closure first held environment) (.closure second held scope)
  isTruthy_eq {first second : Value} (same : value first second) :
    first.isTruthy = second.isTruthy
  callees {first second : Value} (same : value first second) :
    toComparison.Callees function first second
  fault_arity (procedure expected : String) (got : Nat) :
    fault (.arityMismatch procedure expected got) (.arityMismatch procedure expected got)
  fault_unbound (name : Variable) : fault (.unbound name) (.unbound name)
  fault_thrown {first second : Value} (same : value first second) :
    fault (.thrown first) (.thrown second)
  /-- Handlers see values that are alike, or none. -/
  caught {first second : Fault} (same : fault first second) :
    Option.Rel value (caughtValue (.error (.fault first))) (caughtValue (.error (.fault second)))
  elements {first second : Value} (same : value first second) :
    toComparison.Answers toComparison.Values (elementsOf first) (elementsOf second)
  arithmetic (operator : ArithmeticOperator) {first second : List Value}
    (same : toComparison.Values first second) :
    toComparison.Answers value (arithmetic operator first) (arithmetic operator second)
  unary (operator : UnaryOperator) {first second : Value} (same : value first second) :
    toComparison.Answers value (unary operator first) (unary operator second)
  binary (operator : BinaryOperator) {first second left right : Value} (same : value first second)
    (others : value left right) :
    toComparison.Answers value (binary operator first left) (binary operator second right)
  /-- All procedures but the one that spreads a sequence over a call, which is the same for all. -/
  call {procedure : Builtin} (single : procedure ≠ .apply) {args others : List Value}
    (same : toComparison.Values args others)
    (applyTo : Value → List Value → Evaluation Value) :
    Option.Rel (toComparison.Alike .value) (call? applyTo procedure args)
      (call? applyTo procedure others)

namespace Likeness

variable {l : Likeness}

/-! ### Combinators -/

/-- Where a value is asked for, only nodes ask to go back that may fail so. -/
theorem alike_valueOf {first second : Evaluation Flow}
    (same : l.Alike (.flow .inner) first second) :
    l.Alike .value (valueOf first) (valueOf second) := by
  refine .bind same fun flow other flows => ?_
  cases flows with
  | value same => exact .pure same
  | recur allowed => exact .fail (allowed.resolve_left nofun)

/-- Operators need no machine. -/
theorem alike_lift {first second : Except Fault Value} (same : l.Answers l.value first second) :
    l.Alike .value (lift first) (lift second) :=
  .lift same

theorem alike_elements {first second : Value} (same : l.value first second) :
    l.Alike .values (lift (elementsOf first)) (lift (elementsOf second)) :=
  .lift (l.elements same)

section Combinators

variable {step other : Node → Evaluation Flow} {position : Position}

/-- Nodes are evaluated from the first to the last. -/
theorem alike_values {nodes : List Node}
    (each : ∀ node ∈ nodes, l.Alike (.flow .inner) (step node) (other node)) :
    l.Alike .values (values step nodes) (values other nodes) := by
  induction nodes with
  | nil => exact .pure .nil
  | cons node rest ih =>
    obtain ⟨first, others⟩ := List.forall_mem_cons.mp each
    refine .bind (alike_valueOf first) fun _ _ same => ?_
    exact .bind (ih others) fun _ _ sameRest => .pure (.cons same sameRest)

/-- Each key is evaluated right before its value. -/
theorem alike_entryValues {entries : List (Node × Node)}
    (each : ∀ entry ∈ entries, l.Alike (.flow .inner) (step entry.1) (other entry.1) ∧
      l.Alike (.flow .inner) (step entry.2) (other entry.2)) :
    l.Alike .entries (entryValues step entries) (entryValues other entries) := by
  induction entries with
  | nil => exact .pure .nil
  | cons entry rest ih =>
    obtain ⟨⟨key, item⟩, others⟩ := List.forall_mem_cons.mp each
    refine .bind (alike_valueOf key) fun _ _ sameKey => ?_
    refine .bind (alike_valueOf item) fun _ _ sameItem => ?_
    exact .bind (ih others) fun _ _ sameRest => .pure (.cons ⟨sameKey, sameItem⟩ sameRest)

/-- The last node of a body gives the result, and so may also go back to the beginning. -/
theorem alike_inSequence {body : List Node}
    (each : ∀ part ∈ Node.bodyParts position body,
      l.Alike (.flow part.1) (step part.2) (other part.2)) :
    l.Alike (.flow position) (inSequence step body) (inSequence other body) := by
  induction body with
  | nil => exact .pure (.value (l.value_atom trivial))
  | cons node rest ih =>
    cases rest with
    | nil => exact each _ List.mem_cons_self
    | cons next rest =>
      obtain ⟨first, others⟩ := List.forall_mem_cons.mp each
      exact .bind (alike_valueOf first) fun _ _ _ => ih others

/-- The same tests hold, since values that are alike are true alike. -/
theorem alike_choose {branches : List (Node × Node)} {otherwise : Node}
    (each : ∀ branch ∈ branches, l.Alike (.flow .inner) (step branch.1) (other branch.1) ∧
      l.Alike (.flow position) (step branch.2) (other branch.2))
    (last : l.Alike (.flow position) (step otherwise) (other otherwise)) :
    l.Alike (.flow position) (choose step branches otherwise)
      (choose other branches otherwise) := by
  induction branches with
  | nil => exact last
  | cons branch rest ih =>
    obtain ⟨⟨test, consequent⟩, others⟩ := List.forall_mem_cons.mp each
    refine .bind (alike_valueOf test) fun value otherValue same => ?_
    rw [l.isTruthy_eq same]
    split
    · exact consequent
    · exact ih others

end Combinators

/-- Each initial value is evaluated under the bindings before it. -/
theorem alike_bindInits {step other : Environment → Node → Evaluation Flow}
    {bindings : List (Variable × Node)} {environment scope : Environment}
    (each : ∀ first second, l.Binds first second → ∀ binding ∈ bindings,
      l.Alike (.flow .inner) (step first binding.2) (other second binding.2))
    (bound : l.Binds environment scope) :
    l.Alike .environment (bindInits step bindings environment)
      (bindInits other bindings scope) := by
  induction bindings generalizing environment scope with
  | nil => exact .pure bound
  | cons binding rest ih =>
    have first := each _ _ bound binding List.mem_cons_self
    refine .bind (alike_valueOf first) fun value otherValue same => ih ?_ (bound.set _ same)
    exact fun _ _ bound later member => each _ _ bound later (List.mem_cons_of_mem _ member)

/-! ### Handlers -/

/-- A handler runs in both places or in none, and on values that are alike. -/
theorem alike_caughtValue {position : Position} {first second : Except (Halt Fault) Flow}
    (same : l.Endings (l.Flows position) first second) :
    Option.Rel l.value (caughtValue first) (caughtValue second) := by
  cases same with
  | ok same => exact .none
  | fault same => exact l.caught same
  | outOfFuel => exact .none

/-- Whatever the ending is, the part that always runs comes after it, and may replace it. -/
theorem alike_handled {step other : Environment → List Node → Evaluation Flow}
    {environment scope : Environment} {body : List Node}
    {handler : Option (Variable × List Node)} {cleanup : Option (List Node)} {position : Position}
    (whole : l.Alike (.flow position) (step environment body) (other scope body))
    (handles : ∀ clause, handler = some clause → ∀ first second, l.value first second →
      l.Alike (.flow position) (step (environment.set clause.1 first) clause.2)
        (other (scope.set clause.1 second) clause.2))
    (always : ∀ nodes, cleanup = some nodes →
      l.Alike (.flow .inner) (step environment nodes) (other scope nodes)) :
    l.Alike (.flow position) (handled step environment body handler cleanup)
      (handled other scope body handler cleanup) := by
  refine whole.observe_bind ?_ fun ending otherEnding endings => ?_
  · cases handler <;> cases cleanup <;> rfl
  have caught := alike_caughtValue endings
  generalize caughtValue ending = seen, caughtValue otherEnding = otherSeen at caught ⊢
  -- The handler runs on what it sees, or the ending stays.
  cases caught <;> cases handler
  case' some.some value otherValue same clause =>
    refine (handles clause rfl _ _ same).observe_bind ?_ fun ending otherEnding endings => ?_
    · cases cleanup <;> rfl
  case' none.none | none.some | some.none => simp only [pure_bind]
  all_goals
    cases endings with
    | outOfFuel => exact .outOfFuel
    | ok same =>
      cases cleanup with
      | none => exact .pure same
      | some nodes => exact .bind (alike_valueOf (always nodes rfl)) fun _ _ _ => .pure same
    | fault same =>
      cases cleanup with
      | none => exact .fail same
      | some nodes => exact .bind (alike_valueOf (always nodes rfl)) fun _ _ _ => .fail same

/-! ### Variables and parameters -/

/-- A variable is found in both places or in none. -/
theorem alike_lookup {environment scope : Environment} (bound : l.Binds environment scope)
    (name : Variable) : l.Alike .value (lookup name environment) (lookup name scope) := by
  refine .bind .get fun machine other globals => ?_
  have here := bound.lookup name
  have there := Comparison.Binds.lookup globals name
  generalize environment.lookup name = first, scope.lookup name = second at here ⊢
  generalize machine.globals.lookup name = global, other.globals.lookup name = otherGlobal
    at there ⊢
  cases here with
  | some same => exact .pure same
  | none =>
    cases there with
    | some same => exact .pure same
    | none => exact .fail (l.fault_unbound name)

/-- Parameters are bound to arguments that are alike, and the rest of them to a list. -/
theorem binds_bindParams {environment scope : Environment} {args others : List Value}
    (bound : l.Binds environment scope) (params : Params) (same : l.Values args others) :
    l.Binds (bindParams environment params args) (bindParams scope params others) := by
  have fixed := bound.setAll params.fixed same
  have further := List.forall₂_drop params.required same
  rw [bindParams, bindParams]
  cases params.rest with
  | none => exact fixed
  | some rest =>
    dsimp only
    generalize args.drop params.required = left, others.drop params.required = leftOthers
      at further ⊢
    cases further with
    | nil => exact fixed.set rest (l.value_atom trivial)
    | cons same sameRest => exact fixed.set rest (l.value_list (.cons same sameRest))

/-! ### Library procedures -/

theorem alike_getLast {α β : Type} {alike : α → β → Prop} {first : List α} {second : List β}
    (same : List.Forall₂ alike first second) :
    Option.Rel alike first.getLast? second.getLast? := by
  have reversed := List.rel_reverse same
  rw [List.getLast?_eq_head?_reverse, List.getLast?_eq_head?_reverse]
  generalize first.reverse = left, second.reverse = right at reversed ⊢
  cases reversed with
  | nil => exact .none
  | cons last => exact .some last

section Calls

variable {applyTo applyOther : Value → List Value → Evaluation Value}

/-- Only one procedure calls others. -/
theorem call_eq_of_ne_apply {procedure : Builtin} (single : procedure ≠ .apply)
    (args : List Value) : call? applyTo procedure args = call? applyOther procedure args := by
  cases procedure with
  | apply => exact absurd rfl single
  | _ => rcases args with _ | ⟨_, _ | ⟨_, _ | _⟩⟩ <;> rfl

variable (applies : ∀ callee other, l.value callee other → ∀ args others, l.Values args others →
  l.Alike .value (applyTo callee args) (applyOther other others))
include applies

/-- The procedure that spreads a sequence makes the same call of values that are alike. -/
theorem alike_spread {args others : List Value} (same : l.Values args others) :
    Option.Rel (l.Alike .value) (call? applyTo .apply args) (call? applyOther .apply others) := by
  cases same with
  | nil => exact .none
  | @cons callee other args others same sameRest =>
    have last := alike_getLast sameRest
    simp only [call?]
    generalize args.getLast? = found, others.getLast? = otherFound at last ⊢
    cases last with
    | none => exact .none
    | some last =>
      refine .some (.bind (alike_elements last) fun _ _ spread => ?_)
      refine applies _ _ same _ _ (List.rel_append ?_ spread)
      rw [List.dropLast_eq_take, List.dropLast_eq_take, sameRest.length_eq]
      exact List.forall₂_take _ sameRest

/-- A procedure is called with as many arguments in both places, so its arity is right in both. -/
theorem alike_call (procedure : Builtin) {args others : List Value}
    (same : l.Values args others) :
    l.Alike .value (Library.call applyTo procedure args)
      (Library.call applyOther procedure others) := by
  rw [Library.core_call, Library.core_call, mismatch, mismatch, same.length_eq]
  split
  · have calls : Option.Rel (l.Alike .value) (call? applyTo procedure args)
        (call? applyOther procedure others) := by
      by_cases single : procedure = .apply
      · subst single
        exact alike_spread applies same
      · rw [call_eq_of_ne_apply single]
        exact l.call single same applyOther
    generalize call? applyTo procedure args = called, call? applyOther procedure others = other
      at calls ⊢
    cases calls with
    | none => exact .fail (l.fault_arity _ _ _)
    | some same => exact same
  · exact .fail (l.fault_arity _ _ _)

end Calls

/-! ### The evaluator -/

variable (l) in
/-- Calls of the evaluator with these two amounts of fuel are alike. -/
structure Evaluates (fuel more : Nat) : Prop where
  run {position : Position} {node : Node} {environment scope : Environment}
    (allowed : l.node position node) (bound : l.Binds environment scope) :
    l.Alike (.flow position) (run fuel environment node) (run more scope node)
  iterate {names : List Variable} {body : List Node} {environment scope : Environment}
    (allowed : ∀ part ∈ Node.bodyParts .tail body, l.node part.1 part.2)
    (bound : l.Binds environment scope) :
    l.Alike .value (iterate fuel names body environment) (iterate more names body scope)
  apply {callee other : Value} {args others : List Value} (same : l.value callee other)
    (sameArgs : l.Values args others) :
    l.Alike .value (apply fuel callee args) (apply more other others)
  enter {function : Lambda} {environment scope : Environment} {args others : List Value}
    (allowed : l.function function) (bound : l.Binds environment scope)
    (sameArgs : l.Values args others) :
    l.Alike .value (enter fuel function environment args) (enter more function scope others)

/-- The nodes of the clause that is selected are nodes of the function. -/
theorem mem_parts_of_clauseFor {function : Lambda} {count : Nat} {clause : Clause}
    (found : function.clauseFor? count = some clause) :
    ∀ part ∈ Node.bodyParts .tail clause.body, part ∈ function.parts := by
  have member : clause ∈ function.clauses := by
    rcases Option.or_eq_some_iff.mp found with fixed | ⟨-, any⟩
    · exact List.mem_of_find?_eq_some fixed
    · exact List.mem_of_find?_eq_some any
  exact fun part among => List.mem_flatMap.mpr ⟨clause, member, among⟩

section Step

variable {fuel more : Nat} (evaluates : l.Evaluates fuel more)
include evaluates

/-- Bodies are evaluated node by node, the last one in the position of the body. -/
theorem Evaluates.body {position : Position} {body : List Node} {environment scope : Environment}
    (allowed : ∀ part ∈ Node.bodyParts position body, l.node part.1 part.2)
    (bound : l.Binds environment scope) :
    l.Alike (.flow position) (inSequence (Eval.run fuel environment) body)
      (inSequence (Eval.run more scope) body) :=
  alike_inSequence fun part member => evaluates.run (allowed part member) bound

theorem Evaluates.all {nodes : List Node} {environment scope : Environment}
    (allowed : ∀ part ∈ nodes.map fun node => (Position.inner, node), l.node part.1 part.2)
    (bound : l.Binds environment scope) :
    l.Alike .values (values (Eval.run fuel environment) nodes)
      (values (Eval.run more scope) nodes) :=
  alike_values fun node member =>
    evaluates.run (allowed (.inner, node) (List.mem_map_of_mem member)) bound

/-- A node that must have a value. -/
theorem Evaluates.single {node : Node} {environment scope : Environment}
    (allowed : l.node .inner node) (bound : l.Binds environment scope) :
    l.Alike .value (eval fuel environment node) (eval more scope node) :=
  alike_valueOf (evaluates.run allowed bound)

/-- Tests must have values; what is chosen ends as the conditional does. -/
theorem Evaluates.branches {position : Position} {branches : List (Node × Node)}
    {otherwise : Node} {environment scope : Environment}
    (allowed : l.node position (.conditional branches otherwise))
    (bound : l.Binds environment scope) :
    l.Alike (.flow position) (choose (Eval.run fuel environment) branches otherwise)
      (choose (Eval.run more scope) branches otherwise) := by
  obtain ⟨allowedBranches, allowedLast⟩ := List.forall_mem_append.mp (l.node_of_parts allowed)
  refine alike_choose (fun branch member => ⟨?_, ?_⟩) ?_
  · exact evaluates.run (allowedBranches (.inner, branch.1)
      (List.mem_flatMap.mpr ⟨branch, member, by simp⟩)) bound
  · exact evaluates.run (allowedBranches (position, branch.2)
      (List.mem_flatMap.mpr ⟨branch, member, by simp⟩)) bound
  · exact evaluates.run (allowedLast _ List.mem_cons_self) bound

/-- A round of a loop ends it, or goes on with values that are alike. -/
theorem Evaluates.iterate_succ {names : List Variable} {body : List Node}
    {environment scope : Environment}
    (allowed : ∀ part ∈ Node.bodyParts .tail body, l.node part.1 part.2)
    (bound : l.Binds environment scope) :
    l.Alike .value (Eval.iterate (fuel + 1) names body environment)
      (Eval.iterate (more + 1) names body scope) := by
  rw [Eval.iterate, Eval.iterate]
  refine .bind (evaluates.body allowed bound) fun flow other flows => ?_
  cases flows with
  | value same => exact .pure same
  | recur _ same =>
    dsimp only
    rw [same.length_eq]
    split
    · exact evaluates.iterate allowed (bound.setAll names same)
    · exact .fail (l.fault_arity _ _ _)

/-- The same clause is selected, for as many arguments. -/
theorem Evaluates.enter_succ {function : Lambda} {environment scope : Environment}
    {args others : List Value} (allowed : l.function function)
    (bound : l.Binds environment scope) (sameArgs : l.Values args others) :
    l.Alike .value (Eval.enter (fuel + 1) function environment args)
      (Eval.enter (more + 1) function scope others) := by
  rw [Eval.enter, Eval.enter, sameArgs.length_eq]
  split
  · exact .fail (l.fault_arity _ _ _)
  · rename_i clause found
    have allowedBody : ∀ part ∈ Node.bodyParts .tail clause.body, l.node part.1 part.2 :=
      fun part member => l.node_of_function allowed part (mem_parts_of_clauseFor found part member)
    have boundBody := binds_bindParams bound clause.params sameArgs
    refine .bind (evaluates.body allowedBody boundBody) fun flow other flows => ?_
    cases flows with
    | value same => exact .pure same
    | recur _ same => exact evaluates.enter allowed bound same

omit evaluates in
theorem apply_of_uncallable {callee : Value} (uncallable : callee.IsUncallable) (fuel : Nat)
    (args : List Value) : Eval.apply (fuel + 1) callee args = fail (.notCallable callee) := by
  cases callee with
  | builtin | closure => exact uncallable.elim
  | _ => rfl

/-- Values that are alike are called alike. -/
theorem Evaluates.apply_succ {callee other : Value} {args others : List Value}
    (same : l.value callee other) (sameArgs : l.Values args others) :
    l.Alike .value (Eval.apply (fuel + 1) callee args) (Eval.apply (more + 1) other others) := by
  cases l.callees same with
  | builtin procedure =>
    rw [Eval.apply, Eval.apply]
    exact alike_call (fun _ _ same _ _ => evaluates.apply same) procedure sameArgs
  | closure allowed bound =>
    rw [Eval.apply, Eval.apply]
    exact evaluates.enter allowed bound sameArgs
  | uncallable notFirst notSecond same =>
    rw [apply_of_uncallable notFirst, apply_of_uncallable notSecond]
    exact .fail same

/-- A node ends as its parts do and as its construct makes of that, one case for each construct. -/
theorem Evaluates.run_succ {position : Position} {node : Node} {environment scope : Environment}
    (allowed : l.node position node) (bound : l.Binds environment scope) :
    l.Alike (.flow position) (Eval.run (fuel + 1) environment node)
      (Eval.run (more + 1) scope node) := by
  have parts := l.node_of_parts allowed
  have result {first second : Value} (same : l.value first second) :
      l.Alike (.flow position) (pure (.value first)) (pure (.value second)) :=
    .pure (.value same)
  have barred {reason : Fault} (ends : node.barred? = some reason) :
      l.Alike (.flow position) (fail reason) (fail reason) :=
    .fail (l.fault_of_barred allowed ends)
  cases node with
  | nil | boolean | integer | decimal | string | keyword | symbol =>
    exact result (l.value_atom trivial)
  | rational numerator denominator => exact result (l.value_of_rational allowed)
  | vector elements =>
    exact .bind (evaluates.all parts bound) fun _ _ same => result (l.value_vector same)
  | list elements =>
    exact .bind (evaluates.all parts bound) fun _ _ same => result (l.value_list same)
  | set elements =>
    exact .bind (evaluates.all parts bound) fun _ _ same => result (l.value_setOf same)
  | recursionPoint args =>
    exact .bind (evaluates.all parts bound) fun _ _ same =>
      .pure (.recur (l.position_of_recur allowed) same)
  | arithmetic operator args =>
    refine .bind (evaluates.all parts bound) fun _ _ same => ?_
    exact .bind (alike_lift (l.arithmetic operator same)) fun _ _ same => result same
  | map entries =>
    refine .bind (alike_entryValues fun entry member => ⟨?_, ?_⟩) fun _ _ same =>
      result (l.value_mapOf same)
    · exact evaluates.run (parts (.inner, entry.1) (List.mem_flatMap.mpr ⟨entry, member, by simp⟩))
        bound
    · exact evaluates.run (parts (.inner, entry.2) (List.mem_flatMap.mpr ⟨entry, member, by simp⟩))
        bound
  | reference name => exact .bind (alike_lookup bound name) fun _ _ same => result same
  | definition name value =>
    refine .bind (evaluates.single (parts _ List.mem_cons_self) bound) fun _ _ same => ?_
    exact .bind (.define name same) fun _ _ _ => result same
  | conditional branches otherwise => exact evaluates.branches allowed bound
  | lambda function =>
    refine .bind .newIdentity fun _ _ same => result ?_
    exact l.value_closure same (l.function_of_lambda allowed) bound
  | block body => exact evaluates.body parts bound
  | loop bindings body =>
    -- The body is walked under whatever bindings the initial values have left.
    obtain ⟨allowedInits, allowedBody⟩ := List.forall_mem_append.mp parts
    refine .bind (alike_bindInits (fun _ _ bound binding member => ?_) bound) ?_
    · exact evaluates.run (allowedInits (.inner, binding.2) (List.mem_map_of_mem member)) bound
    · intro _ _ bound
      exact .bind (evaluates.iterate allowedBody bound) fun _ _ same => result same
  | exceptionHandler body handler cleanup =>
    obtain ⟨allowedFirst, allowedCleanup⟩ := List.forall_mem_append.mp parts
    obtain ⟨allowedBody, allowedHandler⟩ := List.forall_mem_append.mp allowedFirst
    rw [Eval.run, Eval.run]
    refine alike_handled ?_ ?_ ?_
    · exact evaluates.body allowedBody bound
    · rintro clause rfl _ _ same
      exact evaluates.body allowedHandler (bound.set _ same)
    · rintro nodes rfl
      exact evaluates.body allowedCleanup bound
  | exception expression =>
    refine .bind (evaluates.single (parts _ List.mem_cons_self) bound) fun _ _ same => ?_
    exact .fail (l.fault_thrown same)
  | application invocable args tail =>
    obtain ⟨allowedCallee, allowedArgs⟩ := List.forall_mem_cons.mp parts
    refine .bind (evaluates.single allowedCallee bound) fun _ _ same => ?_
    refine .bind (evaluates.all allowedArgs bound) fun _ _ sameArgs => ?_
    exact .bind (evaluates.apply same sameArgs) fun _ _ same => result same
  | unary operator operand =>
    refine .bind (evaluates.single (parts _ List.mem_cons_self) bound) fun _ _ same => ?_
    exact .bind (alike_lift (l.unary operator same)) fun _ _ same => result same
  | binary operator left right =>
    obtain ⟨allowedLeft, allowedRest⟩ := List.forall_mem_cons.mp parts
    have first := evaluates.single allowedLeft bound
    have second := evaluates.single (allowedRest _ List.mem_cons_self) bound
    cases operator with
    | and =>
      refine .bind first fun _ _ same => ?_
      rw [l.isTruthy_eq same]
      split
      · exact .bind second fun _ _ same => result same
      · exact result same
    | or =>
      refine .bind first fun _ _ same => ?_
      rw [l.isTruthy_eq same]
      split
      · exact result same
      · exact .bind second fun _ _ same => result same
    | instanceOf => exact .bind first fun _ _ _ => barred rfl
    | _ =>
      refine .bind first fun _ _ same => .bind second fun _ _ others => ?_
      exact .bind (alike_lift (l.binary _ same others)) fun _ _ same => result same
  | classInstantiation | methodResolution | propertyResolution | assignment | macroDefinition
  | typeDefinition | protocolDefinition => exact barred rfl

end Step

/-- The evaluator keeps every likeness, with the same fuel in both places, or with more in the
second if the first may run out. -/
theorem evaluates {spare : Nat} (enough : spare = 0 ∨ l.lenient) (fuel : Nat) :
    l.Evaluates fuel (fuel + spare) := by
  induction fuel with
  | zero =>
    -- Without fuel the first run says nothing of the second, unless both have none.
    rcases enough with rfl | lenient
    · exact ⟨fun _ _ => .outOfFuel, fun _ _ => .outOfFuel, fun _ _ => .outOfFuel,
        fun _ _ _ => .outOfFuel⟩
    · exact ⟨fun _ _ => .outOfFuel_left lenient _, fun _ _ => .outOfFuel_left lenient _,
        fun _ _ => .outOfFuel_left lenient _, fun _ _ _ => .outOfFuel_left lenient _⟩
  | succ fuel ih =>
    rw [Nat.add_right_comm]
    exact ⟨ih.run_succ, ih.iterate_succ, ih.apply_succ, ih.enter_succ⟩

end Likeness

end Eval

end ScriptLisp
