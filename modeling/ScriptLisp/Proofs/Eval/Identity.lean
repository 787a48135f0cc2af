import ScriptLisp.Proofs.Eval.Fuel
import ScriptLisp.Proofs.Eval.Renumbering

/-!
Evaluation does not look at identities. The same evaluation on a machine whose closures have other
identities, and which goes on to hand out other ones, does the same under these identities: the same
steps in the same amount of fuel, and the same result or the same fault.

* `Renumbers`: two evaluations that do the same under other identities.
* `identities`: the comparison of everything with what it is under other identities, as long as no
  more than a last identity is handed out.
* `call_renumber`, `renumberings`: library procedures and evaluation keep this likeness.
* `renumbers_eval`, `renumbers_enter`, ...: evaluation and calls do the same under other identities.
* `ends_renumbered_iff`, `evaluatesTo_renumber`: how an evaluation ends under other identities.
-/

namespace ScriptLisp

/-- The identities after `first` and up to `last` are the ones that a machine hands out in their
place when it is ahead. -/
def Renumbering.Carries (numbering : Renumbering) (first last : Nat) : Prop :=
  ∀ identity, first < identity → identity ≤ last →
    numbering.identity identity = identity + numbering.shift

namespace Eval

open Stateful (Ends)
open Value (renumber renumberEntry)

variable {numbering : Renumbering} {α β : Type}

/-! ### Rules for evaluations -/

/-- How an evaluation ends, under other identities, given what they make of a result. -/
def renumberEnding (numbering : Renumbering) (f : α → α) :
    Except (Halt Fault) α → Except (Halt Fault) α
  | .ok result => .ok (f result)
  | .error (.fault reason) => .error (.fault (reason.renumber numbering))
  | .error .outOfFuel => .error .outOfFuel

/-- On a machine under other identities the second evaluation does what the first one does on the
machine itself, under these identities. -/
structure Renumbers (numbering : Renumbering) (f : α → α) (evaluation renumbered : Evaluation α) :
    Prop where
  counts (machine : Machine) : machine.closures ≤ (evaluation machine).2.closures
  does (machine : Machine)
    (carries : numbering.Carries machine.closures (evaluation machine).2.closures) :
    renumbered (machine.renumber numbering) =
      (renumberEnding numbering f (evaluation machine).1,
        (evaluation machine).2.renumber numbering)

/-! ### The comparison -/

/-- Everything is like what it is under other identities, on a machine that goes on to hand these
out, as long as no more than the last identity is handed out. -/
def identities (numbering : Renumbering) (last : Nat) : Comparison where
  value first second := first.renumber numbering = second
  fault first second := first.renumber numbering = second
  identity first second := numbering.identity first = second
  count first second := first + numbering.shift = second ∧ numbering.Carries first last
  lenient := False
  beyond closures := last < closures
  beyond_of_le most far := Nat.lt_of_lt_of_le far most
  total far :=
    { value := fun _ => ⟨_, rfl⟩
      fault := fun _ => ⟨_, rfl⟩
      identity := fun _ => ⟨_, rfl⟩
      count := ⟨_, rfl, fun _ above below => absurd (Nat.lt_of_lt_of_le above below) (by omega)⟩
      recur := rfl }
  count_succ := by
    rintro first _ ⟨rfl, carries⟩
    by_cases most : first + 1 ≤ last
    · have carried := carries _ (Nat.lt_succ_self first) most
      refine .inr ⟨carried.trans (Nat.succ_add _ _), Nat.succ_add _ _, ?_⟩
      exact fun identity above => carries identity (Nat.lt_of_succ_lt above)
    · exact .inl (Nat.lt_of_not_le most)

namespace identities

variable {last : Nat}

theorem values_iff {first second : List Value} :
    (identities numbering last).Values first second ↔ first.map (renumber numbering) = second :=
  forall₂_iff_map fun _ _ => Iff.rfl

theorem entries_iff {first second : List (Value × Value)} :
    (identities numbering last).Entries first second ↔
      first.map (renumberEntry numbering) = second := by
  refine forall₂_iff_map fun entry other => ?_
  rw [Prod.ext_iff]
  rfl

theorem binds_iff {first second : Environment} :
    (identities numbering last).Binds first second ↔ first.renumber numbering = second := by
  refine forall₂_iff_map fun binding other => ?_
  rw [Prod.ext_iff]
  rfl

theorem answers {f : α → α} {alike : α → α → Prop} {result renumbered : Except Fault α}
    (same : renumbered = renumberResult numbering f result)
    (maps : ∀ value, alike value (f value)) :
    (identities numbering last).Answers alike result renumbered := by
  subst same
  cases result with
  | ok value => exact .ok (maps value)
  | error reason => exact .error rfl

theorem callees (value : Value) :
    (identities numbering last).Callees (fun _ => True) value (value.renumber numbering) := by
  cases value with
  | builtin procedure => exact .builtin procedure
  | closure identity function environment =>
    rw [Value.renumber_closure]
    exact .closure trivial (binds_iff.mpr rfl)
  | _ => exact .uncallable trivial trivial rfl

/-- Two evaluations that are alike however many identities are handed out. -/
theorem renumbers {f : α → α} {kind : ∀ last, (identities numbering last).Kind α α}
    {evaluation renumbered : Evaluation α}
    (same : ∀ last, (identities numbering last).Alike (kind last) evaluation renumbered)
    (maps : ∀ last first second, (kind last).alike first second → f first = second) :
    Renumbers numbering f evaluation renumbered := by
  constructor
  · intro machine
    have none : numbering.Carries machine.closures machine.closures := fun _ above below =>
      absurd (Nat.lt_of_lt_of_le above below) (Nat.lt_irrefl _)
    obtain ⟨steps, -⟩ := same _ machine (machine.renumber numbering)
      ⟨binds_iff.mpr rfl, rfl, rfl, none⟩
    exact (counters_le_of_steps steps).2
  · intro machine carries
    obtain ⟨last, isLast⟩ : ∃ last, last = (evaluation machine).2.closures := ⟨_, rfl⟩
    rw [← isLast] at carries
    obtain ⟨-, agree⟩ := same last machine (machine.renumber numbering)
      ⟨binds_iff.mpr rfl, rfl, rfl, carries⟩
    generalize evaluation machine = first, renumbered (machine.renumber numbering) = second
      at agree isLast ⊢
    cases agree with
    | beyond far => exact absurd far (Nat.not_lt.mpr (Nat.le_of_eq isLast.symm))
    | outOfFuel lenient => exact lenient.elim
    | @ended _ _ after otherAfter endings machines =>
      obtain rfl : after.renumber numbering = otherAfter := by
        obtain ⟨globals, gensyms, counts, -⟩ := machines
        cases otherAfter
        cases binds_iff.mp globals
        cases gensyms
        cases counts
        rfl
      cases endings with
      | ok same => rw [← maps _ _ _ same]; rfl
      | fault same => rw [← show _ = _ from same]; rfl
      | outOfFuel => rfl

end identities

/-! ### Library procedures -/

section Calls

variable {last : Nat}

/-- A call that needs no machine. -/
theorem calls_answer {result renumbered : Except Fault Value}
    (same : renumbered = renumberResult numbering (renumber numbering) result) :
    Option.Rel ((identities numbering last).Alike .value) (answer result) (answer renumbered) :=
  .some (.lift (identities.answers same fun _ => rfl))

/-- A generated name holds no identity. -/
theorem alike_gensym (start : String) :
    (identities numbering last).Alike .value (do return .symbol (← generateName start))
      (do return .symbol (← generateName start)) := by
  refine .bind (.generateName start) fun name _ same => ?_
  cases same
  exact .pure rfl

/-- Whether the arguments are enough for a procedure depends on their number only. -/
theorem isSome_call_map (applyTo : Value → List Value → Evaluation Value) (f : Value → Value)
    (procedure : Builtin) (args : List Value) :
    (call? applyTo procedure (args.map f)).isSome = (call? applyTo procedure args).isSome := by
  cases procedure <;> rcases args with _ | ⟨_, _ | ⟨_, _ | _⟩⟩ <;> rfl

/-- All procedures but the one that calls others do the same under other identities. -/
theorem call_renumber (applyTo : Value → List Value → Evaluation Value) {procedure : Builtin}
    (single : procedure ≠ .apply) (args : List Value) :
    Option.Rel ((identities numbering last).Alike .value) (call? applyTo procedure args)
      (call? applyTo procedure (args.map (renumber numbering))) := by
  have elements {h k : List Value → Value} (value : Value) (maps : ∀ elements,
      k (elements.map (renumber numbering)) = renumber numbering (h elements)) :
      Option.Rel ((identities numbering last).Alike .value) (answer ((elementsOf value).map h))
        (answer ((elementsOf (value.renumber numbering)).map k)) :=
    calls_answer (result_map (elementsOf_renumber value) maps)
  have text {result renumbered : Except Fault String} {h : String → Value}
      (same : renumbered = renumberResult numbering id result)
      (maps : ∀ s, h s = renumber numbering (h s)) :
      Option.Rel ((identities numbering last).Alike .value) (answer (result.map h))
        (answer (renumbered.map h)) :=
    calls_answer (result_map same maps)
  -- For the last case, where no body takes the arguments: then none takes them renumbered.
  have enough := isSome_call_map applyTo (renumber numbering) procedure args
  fun_cases call? applyTo procedure args
  · exact calls_answer (congrArg Except.ok (Value.renumber_list _).symm)
  · exact calls_answer (congrArg Except.ok (Value.renumber_vector _).symm)
  · exact calls_answer (hashMap_renumber _)
  · exact calls_answer (congrArg Except.ok (Value.setOf_renumber _))
  · exact elements _ fun es => by cases es <;> rfl
  · exact elements _ fun es => by rw [List.getElem?_map]; cases es[1]? <;> rfl
  · exact elements _ fun es => by rw [← List.map_tail, Value.renumber_list]
  · refine elements _ fun es => ?_
    rw [List.length_map]
    split
    · rfl
    · rw [← List.map_tail, Value.renumber_list]
  · exact elements _ fun es => (Value.renumber_list (_ :: es)).symm
  · exact calls_answer (conj_renumber _ _)
  · exact calls_answer (result_map (concat_renumber _) fun es => (Value.renumber_list es).symm)
  · exact elements _ fun es => by rw [List.length_map]; rfl
  · rename_i x index rest
    rw [List.map_cons, List.map_cons]
    refine calls_answer ?_
    rw [List.head?_map]
    exact nth_renumber _ _ _
  · exact elements _ fun es => by cases es <;> rfl
  iterate 10
    rename_i x _
    exact calls_answer (by cases x <;> rfl)
  · exact text (nameText_renumber _) fun _ => rfl
  · exact text (qualifiedText_renumber _ _) fun _ => rfl
  · exact text (nameText_renumber _) fun _ => rfl
  · exact text (qualifiedText_renumber _ _) fun _ => rfl
  · exact calls_answer (baseName_renumber _)
  · exact calls_answer (qualifierOf_renumber _)
  · have texts : (args.map (renumber numbering)).map joinedText = args.map joinedText := by
      rw [List.map_map]
      exact List.map_congr_left fun value _ => joinedText_renumber value
    refine calls_answer ?_
    rw [texts]
    rfl
  · exact absurd rfl single
  · exact absurd rfl single
  · exact calls_answer rfl
  · exact .some (alike_gensym _)
  · rename_i value _
    have starts : (identities numbering last).Alike .same (lift (gensymStart value))
        (lift (gensymStart (value.renumber numbering))) :=
      .lift (identities.answers (gensymStart_renumber value) fun _ => rfl)
    refine .some (.bind starts fun start _ same => ?_)
    cases same
    exact alike_gensym start
  · have absent : call? applyTo procedure args = none := by
      rw [call?] <;> assumption
    rw [absent, Option.isSome_none, Option.isSome_eq_false_iff, Option.isNone_iff_eq_none] at enough
    rw [enough]
    exact .none

end Calls

/-! ### Evaluation -/

/-- A handler sees the thrown value under other identities; messages show none. -/
theorem caughtValue_renumber (reason : Fault) :
    caughtValue (.error (.fault (reason.renumber numbering))) =
      (caughtValue (.error (.fault reason))).map (renumber numbering) := by
  have text := congrArg (fun message => some (Value.string message))
    (message_renumber numbering reason)
  cases reason with
  | recurOutsideLoop | thrown => rfl
  | _ => exact text

variable (numbering) in
/-- What is made of things under other identities is what is made of the things themselves, under
these identities. -/
def renumberings (last : Nat) : Likeness where
  toComparison := identities numbering last
  node _ _ := True
  function _ := True
  node_of_parts _ _ _ := trivial
  function_of_lambda _ := trivial
  node_of_function _ _ _ := trivial
  position_of_recur _ := .inr rfl
  fault_of_barred := by
    intro position barred reason _ ends
    unfold Node.barred? at ends
    split at ends
    all_goals cases ends
    all_goals rfl
  value_of_rational _ := rfl
  value_atom := by
    intro atom isAtom
    cases atom with
    | rational | list | vector | set | map | closure => exact isAtom.elim
    | _ => rfl
  value_list := by
    intro first second same
    rw [← identities.values_iff.mp same]
    exact Value.renumber_list first
  value_vector := by
    intro first second same
    rw [← identities.values_iff.mp same]
    exact Value.renumber_vector first
  value_setOf := by
    intro first second same
    rw [← identities.values_iff.mp same]
    exact (Value.setOf_renumber first).symm
  value_mapOf := by
    intro first second same
    rw [← identities.entries_iff.mp same]
    exact (Value.mapOf_renumber first).symm
  value_closure := by
    rintro first _ function environment scope rfl - bound
    rw [← identities.binds_iff.mp bound]
    exact Value.renumber_closure first function environment
  isTruthy_eq := by
    rintro value _ rfl
    exact (Value.isTruthy_renumber value).symm
  callees := by
    rintro value _ rfl
    exact identities.callees value
  fault_arity _ _ _ := rfl
  fault_unbound _ := rfl
  fault_thrown := by
    rintro value _ rfl
    rfl
  caught := by
    rintro reason _ rfl
    rw [caughtValue_renumber]
    cases caughtValue (.error (.fault reason)) with
    | none => exact .none
    | some value => exact .some rfl
  elements := by
    rintro value _ rfl
    exact identities.answers (elementsOf_renumber value) fun _ => identities.values_iff.mpr rfl
  arithmetic := by
    intro operator first second same
    rw [← identities.values_iff.mp same]
    exact identities.answers (arithmetic_renumber operator first) fun _ => rfl
  unary := by
    rintro operator value _ rfl
    exact identities.answers (unary_renumber operator value) fun _ => rfl
  binary := by
    rintro operator left _ right _ rfl rfl
    exact identities.answers (binary_renumber operator left right) fun _ => rfl
  call := by
    intro procedure single args others same applyTo
    rw [← identities.values_iff.mp same]
    exact call_renumber applyTo single args

/-- The same for evaluations that give a value. -/
abbrev RenumbersValue (numbering : Renumbering) (evaluation renumbered : Evaluation Value) : Prop :=
  Renumbers numbering (renumber numbering) evaluation renumbered

theorem renumbers_value {evaluation renumbered : Evaluation Value}
    (same : ∀ last, (identities numbering last).Alike .value evaluation renumbered) :
    RenumbersValue numbering evaluation renumbered :=
  identities.renumbers same fun _ _ _ => id

theorem renumbers_sequence {evaluation renumbered : Evaluation (List Value)}
    (same : ∀ last, (identities numbering last).Alike .values evaluation renumbered) :
    Renumbers numbering (List.map (renumber numbering)) evaluation renumbered :=
  identities.renumbers same fun _ _ _ => identities.values_iff.mp

theorem renumbers_flow {evaluation renumbered : Evaluation Flow}
    (same : ∀ last, (identities numbering last).Alike (.flow .tail) evaluation renumbered) :
    Renumbers numbering (Flow.renumber numbering) evaluation renumbered := by
  refine identities.renumbers same fun last first second flows => ?_
  cases flows with
  | value same => exact congrArg Flow.value same
  | recur _ same => exact congrArg Flow.recur (identities.values_iff.mp same)

section Evaluation

variable (numbering) (fuel : Nat) (environment : Environment)

theorem evaluates_renumbered (last : Nat) : (renumberings numbering last).Evaluates fuel fuel :=
  (renumberings numbering last).evaluates (.inl rfl) fuel

/-- Nor do bodies. -/
theorem renumbers_inSequence (body : List Node) :
    Renumbers numbering (Flow.renumber numbering) (inSequence (run fuel environment) body)
      (inSequence (run fuel (environment.renumber numbering)) body) :=
  renumbers_flow fun last =>
    (evaluates_renumbered numbering fuel last).body (fun _ _ => trivial)
      (identities.binds_iff.mpr rfl)

theorem renumbers_values (nodes : List Node) :
    Renumbers numbering (List.map (renumber numbering)) (values (run fuel environment) nodes)
      (values (run fuel (environment.renumber numbering)) nodes) :=
  renumbers_sequence fun last =>
    (evaluates_renumbered numbering fuel last).all (fun _ _ => trivial)
      (identities.binds_iff.mpr rfl)

/-- Evaluation does not look at identities. -/
theorem renumbers_eval (node : Node) :
    RenumbersValue numbering (eval fuel environment node)
      (eval fuel (environment.renumber numbering) node) :=
  renumbers_value fun last =>
    (evaluates_renumbered numbering fuel last).single trivial (identities.binds_iff.mpr rfl)

theorem renumbers_apply (callee : Value) (args : List Value) :
    RenumbersValue numbering (apply fuel callee args)
      (apply fuel (callee.renumber numbering) (args.map (renumber numbering))) :=
  renumbers_value fun last =>
    (evaluates_renumbered numbering fuel last).apply rfl (identities.values_iff.mpr rfl)

/-- Nor do calls. -/
theorem renumbers_enter (function : Lambda) (args : List Value) :
    RenumbersValue numbering (enter fuel function environment args)
      (enter fuel function (environment.renumber numbering) (args.map (renumber numbering))) :=
  renumbers_value fun last =>
    (evaluates_renumbered numbering fuel last).enter trivial (identities.binds_iff.mpr rfl)
      (identities.values_iff.mpr rfl)

end Evaluation

/-- Variables are set alike. -/
theorem setAll_renumber (environment : Environment) (names : List Variable)
    (values : List Value) :
    (environment.renumber numbering).setAll names (values.map (renumber numbering)) =
      (environment.setAll names values).renumber numbering := by
  have bound : (identities numbering 0).Binds environment (environment.renumber numbering) :=
    identities.binds_iff.mpr rfl
  exact (identities.binds_iff.mp (bound.setAll names (identities.values_iff.mpr rfl))).symm

/-! ### Endings -/

/-- What comes of a computation under other identities, however much fuel it takes. -/
theorem ends_renumbered_iff {f : α → α} {computation renumbered : Nat → Evaluation α}
    {machine start : Machine}
    (same : ∀ fuel, renumbered fuel start =
      (renumberEnding numbering f (computation fuel machine).1,
        (computation fuel machine).2.renumber numbering))
    (ending : Except Fault α) (after : Machine) :
    Ends renumbered start ending after ↔
      ∃ result left, Ends computation machine result left ∧
        ending = renumberResult numbering f result ∧ after = left.renumber numbering := by
  constructor
  · rintro ⟨fuel, ended⟩
    rw [same] at ended
    obtain ⟨endings, rfl⟩ := Prod.mk.inj ended
    rcases outcome : computation fuel machine with ⟨(reason | _) | value, left⟩
    · refine ⟨.error reason, left, ⟨fuel, outcome⟩, ?_, rfl⟩
      rw [outcome] at endings
      cases ending <;> cases endings
      rfl
    · rw [outcome] at endings
      cases ending <;> cases endings
    · refine ⟨.ok value, left, ⟨fuel, outcome⟩, ?_, rfl⟩
      rw [outcome] at endings
      cases ending <;> cases endings
      rfl
  · rintro ⟨result, left, ⟨fuel, ended⟩, rfl, rfl⟩
    refine ⟨fuel, ?_⟩
    rw [same, ended]
    cases result <;> rfl

/-- Under other identities, which a machine also goes on to hand out, a node evaluates to the same
result or fault and leaves the same machine, under these identities. -/
theorem evaluatesTo_renumber {environment : Environment} {node : Node} {machine : Machine}
    (carries : ∀ last, numbering.Carries machine.closures last) (ending : Except Fault Value)
    (after : Machine) :
    EvaluatesTo (environment.renumber numbering) node (machine.renumber numbering) ending after ↔
      ∃ result left, EvaluatesTo environment node machine result left ∧
        ending = renumberResult numbering (renumber numbering) result ∧
        after = left.renumber numbering :=
  ends_renumbered_iff
    (fun fuel => (renumbers_eval numbering fuel environment node).does machine (carries _)) ending
    after

end Eval

end ScriptLisp
