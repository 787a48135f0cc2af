import ScriptLisp.Proofs.Eval.Distinct
import ScriptLisp.Proofs.Eval.Identity

/-!
A machine knows all identities. What a machine holds, and what evaluations on it give, throw and
define, has only closures with identities that the machine has handed out. This need not be followed
through the evaluator once more: if an identity came up that was not handed out, the evaluation
could be put under other identities which differ in this one only, and it would do something else,
but it does not look at identities.

* `Renumbering.leavingOut`: identities under which one number is left out.
* `known_of_renumbers`: an evaluation that does not look at identities only brings up known ones.
* `identities_known`: whatever a machine is used for, it knows all identities.
-/

namespace ScriptLisp

/-! ### Leaving a number out -/

namespace Renumbering

/-- Identities under which one number is left out, on a machine that is ahead by some others. -/
def leavingOut (number shift : Nat) : Renumbering where
  identity identity := if identity < number then identity else identity + 1
  injective := by
    intro one other same
    dsimp only at same
    split at same <;> split at same <;> omega
  shift := shift

variable {number shift : Nat}

/-- The numbers before the one that is left out stay. -/
theorem leavingOut_eq_self_iff {identity : Nat} :
    (leavingOut number shift).identity identity = identity ↔ identity < number := by
  change (if identity < number then identity else identity + 1) = identity ↔ _
  split <;> omega

/-- All others move on by one. -/
theorem leavingOut_of_le {identity : Nat} (later : number ≤ identity) :
    (leavingOut number shift).identity identity = identity + 1 :=
  if_neg (Nat.not_lt.mpr later)

end Renumbering

open Renumbering (leavingOut leavingOut_eq_self_iff)

theorem Value.renumber_leavingOut_iff {value : Value} {last : Nat} (shift : Nat) :
    value.renumber (leavingOut (last + 1) shift) = value ↔ value.Identities (· ≤ last) := by
  simp only [renumber_eq_self_iff, leavingOut_eq_self_iff, Nat.lt_succ_iff]

theorem Environment.renumber_leavingOut_iff {environment : Environment} {last : Nat}
    (shift : Nat) :
    environment.renumber (leavingOut (last + 1) shift) = environment ↔
      environment.Identities (· ≤ last) := by
  simp only [renumber_eq_self_iff, leavingOut_eq_self_iff, Nat.lt_succ_iff]

namespace Value

variable {numbering : Renumbering}

mutual

/-- Forms hold no closures. -/
theorem renumber_ofForm (form : Form) : (ofForm form).renumber numbering = ofForm form := by
  match form with
  | .nil | .boolean _ | .integer _ | .rational _ _ | .decimal _ | .string _ | .symbol _
  | .keyword _ => rfl
  | .list forms => rw [ofForm, renumber_list, map_renumber_ofForms]
  | .vector forms => rw [ofForm, renumber_vector, map_renumber_ofForms]
  | .set forms => rw [ofForm, ← setOf_renumber, map_renumber_ofForms]
  | .map entries => rw [ofForm, ← mapOf_renumber, map_renumber_ofEntries]

theorem map_renumber_ofForms (forms : List Form) :
    (ofForms forms).map (renumber numbering) = ofForms forms := by
  match forms with
  | [] => rfl
  | form :: rest => rw [ofForms, List.map_cons, renumber_ofForm, map_renumber_ofForms]

theorem map_renumber_ofEntries (entries : List (Form × Form)) :
    (ofEntries entries).map (renumberEntry numbering) = ofEntries entries := by
  match entries with
  | [] => rfl
  | (key, item) :: rest =>
    rw [ofEntries, List.map_cons, renumberEntry, renumber_ofForm, renumber_ofForm,
      map_renumber_ofEntries]

end

end Value

namespace Eval

open Value (Identities renumber)

/-! ### Known identities -/

/-- A machine has handed out the identities of all closures in a value. -/
def Machine.Knows (machine : Machine) (value : Value) : Prop :=
  value.Identities (· ≤ machine.closures)

/-- A machine has handed out the identities of all closures in some bindings. -/
def Machine.KnowsBindings (machine : Machine) (bindings : Environment) : Prop :=
  bindings.Identities (· ≤ machine.closures)

/-- What is known stays known as identities are handed out. -/
theorem Machine.Knows.later {machine after : Machine} {value : Value} (knows : machine.Knows value)
    (later : machine.closures ≤ after.closures) : after.Knows value :=
  Identities.imp (fun _ below => Nat.le_trans below later) knows

/-- What a machine knows is not changed where the identity that is left out comes later. -/
theorem renumber_of_known {machine : Machine} (known : machine.KnowsBindings machine.globals)
    {last : Nat} (later : machine.closures ≤ last) (shift : Nat) :
    machine.renumber (leavingOut (last + 1) shift) =
      { machine with closures := machine.closures + shift } := by
  have globals : Environment.renumber (leavingOut (last + 1) shift) machine.globals =
      machine.globals :=
    (Environment.renumber_leavingOut_iff shift).mpr fun binding member =>
      Identities.imp (fun _ below => Nat.le_trans below later) (known binding member)
  rw [Machine.renumber, globals]
  rfl

theorem handedOut_renumber {numbering : Renumbering} (ending : Except (Halt Fault) Value) :
    handedOut (renumberEnding numbering (renumber numbering) ending) =
      (handedOut ending).map (renumber numbering) := by
  rcases ending with (reason | _) | value
  · cases reason <;> rfl
  · rfl
  · rfl

/-- An evaluation that does not look at identities only brings up known ones. If the last one that
it hands out is followed by a gap, it does the same, so the one after the gap does not come up. -/
theorem known_of_renumbers {evaluation : Evaluation Value} {machine : Machine}
    (known : machine.KnowsBindings machine.globals)
    (same : RenumbersValue (leavingOut ((evaluation machine).2.closures + 1) 0) evaluation
      evaluation) :
    (∀ value ∈ handedOut (evaluation machine).1, (evaluation machine).2.Knows value) ∧
      (evaluation machine).2.KnowsBindings (evaluation machine).2.globals := by
  have kept := same.does machine fun identity _ below =>
    leavingOut_eq_self_iff.mpr (Nat.lt_succ_of_le below)
  rw [renumber_of_known known (same.counts machine)] at kept
  obtain ⟨endings, machines⟩ := Prod.mk.inj kept
  have values := (handedOut_renumber _).symm.trans (congrArg handedOut endings).symm
  constructor
  · intro value member
    exact (Value.renumber_leavingOut_iff 0).mp (Value.map_eq_self_iff.mp values value member)
  · exact (Environment.renumber_leavingOut_iff 0).mp (congrArg Machine.globals machines).symm

namespace InUse

/-- A machine in use knows what is held and what is defined. -/
structure Known (use : InUse) : Prop where
  held : ∀ value ∈ use.held, use.machine.Knows value
  globals : use.machine.KnowsBindings use.machine.globals

theorem known_new (target : Target) : Known (.new target) where
  held := List.forall_mem_nil _
  globals := by
    intro binding member
    obtain ⟨procedure, -, listed⟩ := List.mem_flatMap.mp member
    simp only [builtinBindings, List.mem_cons, List.not_mem_nil, or_false] at listed
    rcases listed with rfl | rfl
    · exact (Value.renumber_leavingOut_iff 0).mp rfl
    · exact (Value.renumber_leavingOut_iff 0).mp rfl

variable {use next : InUse}

/-- A known value may be held. -/
theorem Known.hold {value : Value} (known : Known use) (knows : use.machine.Knows value) :
    Known { use with held := value :: use.held } where
  held := List.forall_mem_cons.mpr ⟨knows, known.held⟩
  globals := known.globals

/-- What an evaluation leaves is known if it does the same under every renumbering of what is
unknown. -/
theorem Known.after {evaluation : Evaluation Value} (known : Known use)
    (same : ∀ numbering : Renumbering, (∀ value ∈ use.held, value.renumber numbering = value) →
      RenumbersValue numbering evaluation evaluation) :
    Known (use.after (evaluation use.machine)) := by
  have kept {last : Nat} (later : use.machine.closures ≤ last) :
      ∀ value ∈ use.held, value.renumber (leavingOut (last + 1) 0) = value := fun value member =>
    (Value.renumber_leavingOut_iff 0).mpr
      (Identities.imp (fun _ below => Nat.le_trans below later) (known.held value member))
  have counts := (same _ (kept (Nat.le_refl _))).counts use.machine
  obtain ⟨values, globals⟩ := known_of_renumbers known.globals (same _ (kept counts))
  refine ⟨List.forall_mem_append.mpr ⟨values, ?_⟩, globals⟩
  exact fun value member => (known.held value member).later counts

/-- Each step keeps all identities known. -/
theorem Step.known (step : Step use next) (known : Known use) : Known next := by
  cases step with
  | quoted sound =>
    exact known.hold ((Value.renumber_leavingOut_iff 0).mp (Value.renumber_ofForm _))
  | taken held member => exact known.hold ((known.held _ held).below member)
  | lookedUp defined => exact known.hold (known.globals _ defined)
  | @evaluated fuel environment node sound bound =>
    refine known.after fun numbering kept => ?_
    have same := renumbers_eval numbering fuel environment node
    rwa [Environment.renumber_eq_self_iff.mpr fun binding member =>
      Value.renumber_eq_self_iff.mp (kept _ (bound binding member))] at same
  | @applied fuel callee args held heldArgs =>
    refine known.after fun numbering kept => ?_
    have same := renumbers_apply numbering fuel callee args
    have args : args.map (renumber numbering) = args :=
      Value.map_eq_self_iff.mpr fun arg member => kept arg (heldArgs arg member)
    rwa [kept callee held, args] at same
  | @called fuel function args sound soundArgs =>
    refine known.after fun numbering _ => ?_
    have same := renumbers_enter numbering fuel [] function (args.map .ofForm)
    have args : (args.map Value.ofForm).map (renumber numbering) = args.map .ofForm :=
      Value.map_eq_self_iff.mpr (List.forall_mem_map.mpr fun arg _ => Value.renumber_ofForm arg)
    rwa [args] at same

/-- Whatever a machine is used for from the start, it has handed out the identities of all closures
in the values that its users hold and in those that are defined on it. -/
theorem identities_known {target : Target}
    (reached : Relation.ReflTransGen Step (.new target) use) : Known use := by
  induction reached with
  | refl => exact known_new target
  | tail _ last ih => exact last.known ih

end InUse

end Eval

end ScriptLisp
