import ScriptLisp.Proofs.Eval.Fuel

/-!
Literals evaluate to themselves. A node that is a literal, or a collection of literals at any depth,
has a value that depends on nothing: evaluation gives it under all bindings, on every machine, and
does nothing else.

* `Node.literal?`: the value of a literal.
* `run_literal`, `values_run_literals`: evaluating literals, with fuel for their size.
* `evaluatesTo_literal`: how the evaluation of a literal ends.
-/

namespace ScriptLisp

namespace Node

mutual

/-- The value of a literal, or of a collection of literals. -/
def literal? : Node → Option Value
  | .nil _ => some .nil
  | .boolean b => some (.boolean b.value)
  | .integer i => some (.integer i.value)
  | .rational n d => some (.rational n d)
  | .decimal d => some (.decimal d)
  | .string s => some (.string s.value)
  | .keyword k => some (.keyword k.value.display)
  | .symbol s => some (.symbol s.value.display)
  | .list elements => (literals? elements).map .list
  | .vector elements => (literals? elements).map .vector
  | .set elements => (literals? elements).map Value.setOf
  | .map entries => (literalEntries? entries).map Value.mapOf
  | _ => none

/-- The values of literals, in order. -/
def literals? : List Node → Option (List Value)
  | [] => some []
  | node :: rest => (literal? node).bind fun value => (literals? rest).map (value :: ·)

/-- The values of keys and values that are literals, in order. -/
def literalEntries? : List (Node × Node) → Option (List (Value × Value))
  | [] => some []
  | (key, item) :: rest =>
    (literal? key).bind fun key => (literal? item).bind fun item =>
      (literalEntries? rest).map ((key, item) :: ·)

end

/-- Literals are taken apart one by one. -/
theorem exists_of_literals_cons {node : Node} {rest : List Node} {values : List Value}
    (literals : literals? (node :: rest) = some values) :
    ∃ value more, node.literal? = some value ∧ literals? rest = some more ∧
      values = value :: more := by
  rw [literals?] at literals
  obtain ⟨value, first, behind⟩ := Option.bind_eq_some_iff.mp literals
  obtain ⟨more, others, rfl⟩ := Option.map_eq_some_iff.mp behind
  exact ⟨value, more, first, others, rfl⟩

theorem length_of_literals {nodes : List Node} {values : List Value}
    (literals : literals? nodes = some values) : values.length = nodes.length := by
  induction nodes generalizing values with
  | nil =>
    cases literals
    rfl
  | cons node rest ih =>
    obtain ⟨value, more, -, others, rfl⟩ := exists_of_literals_cons literals
    rw [List.length_cons, List.length_cons, ih others]

end Node

namespace Eval

section Combinators

variable {step : Node → Evaluation Flow}

/-- Literals in order have their values in order, and the machine stays as it is. -/
theorem values_literals {nodes : List Node} {results : List Value}
    (each : ∀ node ∈ nodes, ∀ value, node.literal? = some value → step node = pure (.value value))
    (literals : Node.literals? nodes = some results) : values step nodes = pure results := by
  induction nodes generalizing results with
  | nil =>
    cases literals
    rfl
  | cons node rest ih =>
    obtain ⟨value, more, first, others, rfl⟩ := Node.exists_of_literals_cons literals
    obtain ⟨here, later⟩ := List.forall_mem_cons.mp each
    rw [values, here value first, ih later others]
    rfl

/-- The same for keys and values. -/
theorem entryValues_literals {entries : List (Node × Node)} {results : List (Value × Value)}
    (each : ∀ entry ∈ entries,
      (∀ value, entry.1.literal? = some value → step entry.1 = pure (.value value)) ∧
        ∀ value, entry.2.literal? = some value → step entry.2 = pure (.value value))
    (literals : Node.literalEntries? entries = some results) :
    entryValues step entries = pure results := by
  induction entries generalizing results with
  | nil =>
    cases literals
    rfl
  | cons entry rest ih =>
    obtain ⟨key, item⟩ := entry
    rw [Node.literalEntries?] at literals
    obtain ⟨keyValue, first, behindKey⟩ := Option.bind_eq_some_iff.mp literals
    obtain ⟨itemValue, second, behindItem⟩ := Option.bind_eq_some_iff.mp behindKey
    obtain ⟨more, others, rfl⟩ := Option.map_eq_some_iff.mp behindItem
    obtain ⟨⟨hereKey, hereItem⟩, later⟩ := List.forall_mem_cons.mp each
    rw [entryValues, hereKey keyValue first, hereItem itemValue second, ih later others]
    rfl

end Combinators

/-- With more fuel than its size, a literal gives its value and does nothing else. -/
theorem run_literal {fuel : Nat} {node : Node} {value : Value} (environment : Environment)
    (literal : node.literal? = some value) (enough : sizeOf node < fuel) :
    run fuel environment node = pure (.value value) := by
  induction fuel generalizing node value with
  | zero => exact absurd enough (Nat.not_lt_zero _)
  | succ fuel ih =>
    have inside {nodes : List Node} (smaller : sizeOf nodes < fuel) : ∀ part ∈ nodes, ∀ value,
        part.literal? = some value → run fuel environment part = pure (.value value) :=
      fun part member value given => ih given (Nat.lt_trans (List.sizeOf_lt_of_mem member) smaller)
    cases node with
    | nil | boolean | integer | rational | decimal | string | keyword | symbol =>
      cases literal
      rfl
    | list elements | vector elements | set elements =>
      obtain ⟨results, literals, rfl⟩ := Option.map_eq_some_iff.mp literal
      have smaller : sizeOf elements < fuel := by
        simp at enough
        omega
      rw [run, values_literals (inside smaller) literals]
      rfl
    | map entries =>
      obtain ⟨results, literals, rfl⟩ := Option.map_eq_some_iff.mp literal
      rw [run, entryValues_literals (fun entry member => ?_) literals]
      · rfl
      · obtain ⟨key, item⟩ := entry
        have smaller := List.sizeOf_lt_of_mem member
        simp at enough smaller
        have keySize : sizeOf key < fuel := by omega
        have itemSize : sizeOf item < fuel := by omega
        exact ⟨fun value given => ih given keySize, fun value given => ih given itemSize⟩
    | _ => cases literal

/-- Fuel is enough if it exceeds the depth of the literals, for which their size stands. -/
theorem values_run_literals {nodes : List Node} {values : List Value} {fuel : Nat}
    (environment : Environment) (literals : Node.literals? nodes = some values)
    (most : sizeOf nodes ≤ fuel) : Eval.values (run fuel environment) nodes = pure values :=
  values_literals (fun _ member _ given => run_literal environment given
    (Nat.lt_of_lt_of_le (List.sizeOf_lt_of_mem member) most)) literals

/-- Under any bindings and on any machine, the evaluation of a literal ends with its value and
leaves the machine as it was. -/
theorem evaluatesTo_literal {node : Node} {value : Value} (environment : Environment)
    (machine : Machine) (literal : node.literal? = some value) :
    EvaluatesTo environment node machine (.ok value) machine := by
  refine ⟨sizeOf node + 1, ?_⟩
  change valueOf (run (sizeOf node + 1) environment node) machine = _
  rw [run_literal environment literal (Nat.lt_succ_self _)]
  rfl

end Eval

end ScriptLisp
