import ScriptLisp.Eval.Coverage
import ScriptLisp.Proofs.Eval.Keeping

/-!
The check for constructs without a meaning at compile time is complete. A node that passes it has
only parts that pass it, so evaluation never meets such a construct; and a function that passes it
is the only kind of function that evaluation of passed nodes can create, so this stays true of
everything that later evaluations call.

* `coverage`: passing the check, as a discipline.
* `Covered`: all closures inside a value have functions that pass the check.
-/

namespace ScriptLisp.Eval

/-! ### What passes -/

/-- A check over nodes passes exactly if it does for each one; the same for entries, bindings and
clauses below. -/
theorem uncoveredInAll?_eq_none {nodes : List Node} :
    uncoveredInAll? nodes = none ↔ ∀ node ∈ nodes, uncovered? node = none := by
  induction nodes with
  | nil => simp [uncoveredInAll?]
  | cons node rest ih => rw [uncoveredInAll?, Option.or_eq_none_iff, ih, List.forall_mem_cons]

theorem uncoveredInEntries?_eq_none {entries : List (Node × Node)} :
    uncoveredInEntries? entries = none ↔
      ∀ entry ∈ entries, uncovered? entry.1 = none ∧ uncovered? entry.2 = none := by
  induction entries with
  | nil => simp [uncoveredInEntries?]
  | cons entry rest ih =>
    rw [uncoveredInEntries?, Option.or_eq_none_iff, Option.or_eq_none_iff, ih,
      List.forall_mem_cons]

theorem uncoveredInBindings?_eq_none {bindings : List (Variable × Node)} :
    uncoveredInBindings? bindings = none ↔
      ∀ binding ∈ bindings, uncovered? binding.2 = none := by
  induction bindings with
  | nil => simp [uncoveredInBindings?]
  | cons binding rest ih =>
    rw [uncoveredInBindings?, Option.or_eq_none_iff, ih, List.forall_mem_cons]

theorem uncoveredInClauses?_eq_none {clauses : List Clause} :
    uncoveredInClauses? clauses = none ↔
      ∀ clause ∈ clauses, uncoveredInAll? clause.body = none := by
  induction clauses with
  | nil => simp [uncoveredInClauses?]
  | cons clause rest ih =>
    obtain ⟨params, body⟩ := clause
    rw [uncoveredInClauses?, Option.or_eq_none_iff, ih, List.forall_mem_cons, Clause.body]

/-- The parts of a body are its nodes, each with its position. -/
theorem mem_of_mem_bodyParts {position : Position} {body : List Node} {part : Position × Node}
    (member : part ∈ Node.bodyParts position body) : part.2 ∈ body := by
  fun_induction Node.bodyParts position body with
  | case1 => exact absurd member List.not_mem_nil
  | case2 last => rw [List.mem_singleton.mp member]; exact List.mem_cons_self
  | case3 node rest _ ih =>
    rcases List.mem_cons.mp member with rfl | later
    · exact List.mem_cons_self
    · exact List.mem_cons_of_mem _ (ih later)

theorem uncovered?_of_mem_bodyParts {position : Position} {body : List Node}
    (passes : uncoveredInAll? body = none) :
    ∀ part ∈ Node.bodyParts position body, uncovered? part.2 = none :=
  fun part member => uncoveredInAll?_eq_none.mp passes part.2 (mem_of_mem_bodyParts member)

/-- The parts of a node that passes the check pass it. -/
theorem uncovered?_of_mem_parts {position : Position} {whole : Node}
    (passes : uncovered? whole = none) :
    ∀ part ∈ whole.parts position, uncovered? part.2 = none := by
  cases whole with
  | vector nodes | set nodes | list nodes | recursionPoint nodes | arithmetic _ nodes =>
    rw [uncovered?, uncoveredInAll?_eq_none] at passes
    exact List.forall_mem_map.mpr passes
  | map entries =>
    rw [uncovered?, uncoveredInEntries?_eq_none] at passes
    simp only [Node.parts, List.forall_mem_flatMap, List.forall_mem_cons]
    exact fun entry member => ⟨(passes entry member).1, (passes entry member).2, by simp⟩
  | definition _ node | exception node | unary _ node =>
    rw [uncovered?] at passes
    exact List.forall_mem_singleton.mpr passes
  | conditional branches otherwise =>
    rw [uncovered?, Option.or_eq_none_iff, uncoveredInEntries?_eq_none] at passes
    refine List.forall_mem_append.mpr ⟨?_, List.forall_mem_singleton.mpr passes.2⟩
    simp only [List.forall_mem_flatMap, List.forall_mem_cons]
    exact fun branch member => ⟨(passes.1 branch member).1, (passes.1 branch member).2, by simp⟩
  | block body =>
    rw [uncovered?] at passes
    exact uncovered?_of_mem_bodyParts passes
  | loop bindings body =>
    rw [uncovered?, Option.or_eq_none_iff, uncoveredInBindings?_eq_none] at passes
    refine List.forall_mem_append.mpr ⟨List.forall_mem_map.mpr passes.1, ?_⟩
    exact uncovered?_of_mem_bodyParts passes.2
  | exceptionHandler body handler cleanup =>
    rw [uncovered?.eq_def] at passes
    simp only [Option.or_eq_none_iff] at passes
    obtain ⟨⟨passesBody, passesHandler⟩, passesCleanup⟩ := passes
    refine List.forall_mem_append.mpr ⟨List.forall_mem_append.mpr ⟨?_, ?_⟩, ?_⟩
    · exact uncovered?_of_mem_bodyParts passesBody
    · cases handler with
      | none => exact fun _ member => absurd member List.not_mem_nil
      | some clause => exact uncovered?_of_mem_bodyParts passesHandler
    · cases cleanup with
      | none => exact fun _ member => absurd member List.not_mem_nil
      | some nodes => exact uncovered?_of_mem_bodyParts passesCleanup
  | application invocable args _ =>
    rw [uncovered?, Option.or_eq_none_iff, uncoveredInAll?_eq_none] at passes
    exact List.forall_mem_cons.mpr ⟨passes.1, List.forall_mem_map.mpr passes.2⟩
  | binary operator left right =>
    have both : uncovered? left = none ∧ uncovered? right = none := by
      cases operator with
      | instanceOf => cases passes
      | _ => exact Option.or_eq_none_iff.mp passes
    exact List.forall_mem_cons.mpr ⟨both.1, List.forall_mem_singleton.mpr both.2⟩
  | _ => exact fun _ member => absurd member List.not_mem_nil

/-- The nodes of a function that passes the check pass it. -/
theorem uncovered?_of_mem_function {function : Lambda}
    (passes : uncoveredInLambda? function = none) :
    ∀ part ∈ function.parts, uncovered? part.2 = none := by
  have bodies : ∀ clause ∈ function.clauses, uncoveredInAll? clause.body = none := by
    cases function with
    | single clause =>
      obtain ⟨params, body⟩ := clause
      exact List.forall_mem_singleton.mpr passes
    | multi clauses => exact uncoveredInClauses?_eq_none.mp passes
  rw [Lambda.parts, List.forall_mem_flatMap]
  exact fun clause member => uncovered?_of_mem_bodyParts (bodies clause member)

/-- No node that passes the check is one that evaluation bars. -/
theorem barred?_of_uncovered? {node : Node} (passes : uncovered? node = none) :
    node.barred? = none := by
  cases node with
  | binary operator left right =>
    cases operator with
    | instanceOf => cases passes
    | _ => rfl
  | classInstantiation | methodResolution | propertyResolution | assignment | macroDefinition
  | typeDefinition | protocolDefinition => cases passes
  | _ => rfl

/-! ### The discipline -/

/-- Whether a fault says that a construct or an operator has no meaning at compile time. -/
def Fault.IsUnsupported : Fault → Prop
  | .unsupported _ | .unsupportedOperator _ => True
  | _ => False

/-- The function of a value, if it is a closure, passes the check. -/
def CoveredHere : Value → Prop
  | .closure _ function _ => uncoveredInLambda? function = none
  | _ => True

/-- Nodes and functions pass the check, and no fault is about a construct or an operator. -/
def coverage : Discipline where
  node _ node := uncovered? node = none
  function function := uncoveredInLambda? function = none
  value := CoveredHere
  fault reason := ¬ reason.IsUnsupported
  node_of_parts := uncovered?_of_mem_parts
  function_of_lambda allowed := allowed
  node_of_function := uncovered?_of_mem_function
  position_of_recur _ := .inr id
  fault_of_barred allowed ends := by
    rw [barred?_of_uncovered? allowed] at ends
    cases ends
  value_of_rational _ := trivial
  value_closure := Iff.rfl
  value_plain := by
    intro plain isPlain
    cases plain with
    | closure => exact isPlain.elim
    | _ => trivial
  value_emptySet := trivial
  value_emptyMap := trivial
  value_adjoin _ _ := trivial
  value_insert _ _ _ := trivial
  fault_ordinary := by
    intro reason ordinary
    cases reason with
    | unsupported | unsupportedOperator => exact ordinary.elim
    | _ => exact id
  fault_thrown _ := id

/-! ### Covered values -/

/-- Every closure inside a value has a function that passes the check. -/
def Covered (value : Value) : Prop :=
  ∀ identity function environment,
    Value.Within (.closure identity function environment) value → uncoveredInLambda? function = none

/-- What the discipline says throughout a value is said of its closures. -/
theorem holds_coverage_iff {value : Value} : coverage.Holds value ↔ Covered value := by
  constructor
  · intro holds identity function environment within
    exact holds _ within
  · intro covered inner within
    cases inner with
    | closure => exact covered _ _ _ within
    | _ => trivial

end ScriptLisp.Eval
