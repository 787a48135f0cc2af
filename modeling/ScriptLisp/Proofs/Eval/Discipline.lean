import ScriptLisp.Proofs.Eval.Run
import ScriptLisp.Proofs.Value.Within

/-!
Disciplines: conditions on nodes that evaluation turns into conditions on values and faults. A
discipline says which nodes may stand where, which values may occur and which faults may end an
evaluation, and its laws say how these fit together. An evaluation keeps a discipline if it ends as
the discipline allows, and leaves only allowed values on the machine, whenever only allowed values
were there before.

* `Discipline`: the conditions and their laws.
* `Discipline.Keeps`: an evaluation that keeps a discipline.
* `Discipline.comparison`: a discipline compares every allowed value with itself.
* `keeps_of_alike`: an evaluation that is like itself in this way keeps the discipline.
-/

namespace ScriptLisp

/-- Values that evaluation makes without a condition. -/
def Value.IsPlain : Value → Prop
  | .rational _ _ | .set _ | .map _ | .closure _ _ _ => False
  | _ => True

namespace Eval

/-- Faults that evaluation may end in without a condition. -/
def Fault.IsOrdinary : Fault → Prop
  | .recurOutsideLoop | .unsupported _ | .unsupportedOperator _ | .thrown _ => False
  | _ => True

/-! ### Disciplines -/

/-- Which nodes may stand where, which functions and values may occur, and which faults may end an
evaluation, with the laws that evaluation relies on. -/
structure Discipline where
  node : Position → Node → Prop
  function : Lambda → Prop
  value : Value → Prop
  fault : Fault → Prop
  node_of_parts {position : Position} {whole : Node} (allowed : node position whole) :
    ∀ part ∈ whole.parts position, node part.1 part.2
  function_of_lambda {position : Position} {created : Lambda}
    (allowed : node position (.lambda created)) : function created
  node_of_function {called : Lambda} (allowed : function called) :
    ∀ part ∈ called.parts, node part.1 part.2
  /-- Going back is for tail positions, unless it may fail. -/
  position_of_recur {position : Position} {args : List Node}
    (allowed : node position (.recursionPoint args)) : position = .tail ∨ fault .recurOutsideLoop
  fault_of_barred {position : Position} {barred : Node} {reason : Fault}
    (allowed : node position barred) (ends : barred.barred? = some reason) : fault reason
  value_of_rational {position : Position} {numerator denominator : Int64}
    (allowed : node position (.rational numerator denominator)) :
    value (.rational numerator denominator)
  value_closure {identity : Nat} {held : Lambda} {environment : Environment} :
    value (.closure identity held environment) ↔ function held
  value_plain {plain : Value} (isPlain : plain.IsPlain) : value plain
  value_emptySet : value (.set [])
  value_emptyMap : value (.map [])
  value_adjoin {elements : List Value} {element : Value}
    (set : Value.Throughout value (.set elements)) (added : Value.Throughout value element) :
    value (.set (Value.adjoin elements element))
  value_insert {entries : List (Value × Value)} {key item : Value}
    (map : Value.Throughout value (.map entries)) (addedKey : Value.Throughout value key)
    (addedItem : Value.Throughout value item) : value (.map (Value.insertEntry entries key item))
  fault_ordinary {reason : Fault} (ordinary : reason.IsOrdinary) : fault reason
  fault_thrown (thrown : Value) : fault (.thrown thrown)

namespace Discipline

variable (d : Discipline)

/-- A value is allowed, and everything inside it. -/
def Holds (value : Value) : Prop :=
  Value.Throughout d.value value

/-- All values of a sequence are allowed. -/
def HoldsAll (values : List Value) : Prop :=
  ∀ value ∈ values, d.Holds value

/-- All values that are bound to variables are allowed. -/
def Binds (bindings : List (Variable × Value)) : Prop :=
  ∀ binding ∈ bindings, d.Holds binding.2

/-- A fault is allowed, and so is the value that it throws. -/
def Raises (reason : Fault) : Prop :=
  d.fault reason ∧ ∀ thrown, reason = .thrown thrown → d.Holds thrown

/-- An ending is allowed: an allowed value, an allowed fault, or the end of the fuel. -/
def Ends : Except (Halt Fault) Value → Prop
  | .ok result => d.Holds result
  | .error (.fault reason) => d.Raises reason
  | .error .outOfFuel => True

/-- An evaluation keeps the discipline: it ends as the discipline allows, and keeps the definitions
of a machine allowed. -/
def Keeps (evaluation : Evaluation Value) : Prop :=
  ∀ machine : Machine, d.Binds machine.globals →
    d.Ends (evaluation machine).1 ∧ d.Binds (evaluation machine).2.globals

variable {d}

theorem raises_of_ordinary {reason : Fault} (ordinary : reason.IsOrdinary) : d.Raises reason := by
  refine ⟨d.fault_ordinary ordinary, ?_⟩
  rintro thrown rfl
  exact ordinary.elim

/-! ### Every allowed value is like itself -/

variable (d) in
/-- The comparison of every allowed value with itself, and of nothing else. -/
def comparison (lenient : Prop) : Comparison where
  value first second := d.Holds first ∧ first = second
  fault first second := d.Raises first ∧ first = second
  identity := Eq
  count := Eq
  lenient := lenient
  beyond _ := False
  beyond_of_le _ := id
  total := False.elim
  count_succ counts := .inr ⟨congrArg (· + 1) counts, congrArg (· + 1) counts⟩

variable (d) in
/-- An evaluation is like itself. -/
abbrev SelfAlike (lenient : Prop) (evaluation : Evaluation Value) : Prop :=
  (d.comparison lenient).Alike .value evaluation evaluation

section Iff

variable {lenient : Prop}

/-- Sequences are compared with themselves, and so are entries and bindings. -/
theorem values_iff {first second : List Value} :
    (d.comparison lenient).Values first second ↔ d.HoldsAll first ∧ first = second := by
  rw [← List.forall₂_eq_eq_eq]
  exact List.forall₂_and_left first second

theorem entries_iff {first second : List (Value × Value)} :
    (d.comparison lenient).Entries first second ↔
      (∀ entry ∈ first, d.Holds entry.1 ∧ d.Holds entry.2) ∧ first = second := by
  rw [← List.forall₂_eq_eq_eq, ← List.forall₂_and_left]
  refine ⟨List.Forall₂.imp ?_, List.Forall₂.imp ?_⟩
  · rintro ⟨_, _⟩ ⟨_, _⟩ ⟨⟨holdsKey, rfl⟩, holdsItem, rfl⟩
    exact ⟨⟨holdsKey, holdsItem⟩, rfl⟩
  · rintro _ _ ⟨⟨holdsKey, holdsItem⟩, rfl⟩
    exact ⟨⟨holdsKey, rfl⟩, holdsItem, rfl⟩

theorem binds_iff {first second : Environment} :
    (d.comparison lenient).Binds first second ↔ d.Binds first ∧ first = second := by
  rw [← List.forall₂_eq_eq_eq, Binds, ← List.forall₂_and_left]
  refine ⟨List.Forall₂.imp ?_, List.Forall₂.imp ?_⟩
  · rintro ⟨_, _⟩ ⟨_, _⟩ ⟨rfl, holds, rfl⟩
    exact ⟨holds, rfl⟩
  · rintro _ _ ⟨holds, rfl⟩
    exact ⟨rfl, holds, rfl⟩

theorem Binds.self {environment : Environment} (bound : d.Binds environment) :
    (d.comparison lenient).Binds environment environment :=
  binds_iff.mpr ⟨bound, rfl⟩

theorem HoldsAll.self {values : List Value} (holds : d.HoldsAll values) :
    (d.comparison lenient).Values values values :=
  values_iff.mpr ⟨holds, rfl⟩

theorem Binds.machine {machine : Machine} (bound : d.Binds machine.globals) :
    (d.comparison lenient).Machines machine machine :=
  ⟨bound.self, rfl, rfl⟩

end Iff

/-- Unless it may run out of fuel, an evaluation that is like itself keeps the discipline. -/
theorem keeps_of_alike {evaluation : Evaluation Value} (same : d.SelfAlike False evaluation) :
    d.Keeps evaluation := by
  intro machine bound
  obtain ⟨-, agree⟩ := same machine machine bound.machine
  generalize evaluation machine = ended at agree ⊢
  cases agree with
  | beyond far => exact far.elim
  | outOfFuel lenient => exact lenient.elim
  | ended endings machines =>
    refine ⟨?_, (binds_iff.mp machines.globals).1⟩
    cases endings with
    | ok same => exact same.1
    | fault same => exact same.1
    | outOfFuel => trivial

end Discipline

end Eval

end ScriptLisp
