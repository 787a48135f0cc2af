import Mathlib.Logic.Relation
import ScriptLisp.Proofs.Eval.Keeping
import ScriptLisp.Proofs.Node.Children
import ScriptLisp.Proofs.Value.Equality

/-!
Sets and maps never hold anything twice. They are built up one element or entry at a time, and an
element is left out, and a key replaced, where an equal one is there already. Replacing a key by an
equal one keeps it unequal to the others because equality is symmetric and transitive on sound
values, and evaluation gives only sound values as long as no ratio in a program divides by zero.

* `HasSoundRatios`: nodes, functions and forms in which no ratio divides by zero.
* `soundness`: sound values, as a discipline.
* `InUse`, `InUse.Step`: a machine with the values that its users hold, and what they do with it.
* `Step.lasting`, `lasting_of_reached`: one step, and any number of them.
* `collections_distinct`: nothing occurs twice in a set or as a key of a map, however it came about.
-/

namespace ScriptLisp

/-! ### Ratios of a program -/

namespace Node

def HasSoundRatios (node : Node) : Prop :=
  ∀ numerator denominator, Within subnodes (.rational numerator denominator) node →
    denominator ≠ 0

theorem hasSoundRatios_iff {node : Node} :
    HasSoundRatios node ↔
      (∀ numerator denominator, node = .rational numerator denominator → denominator ≠ 0) ∧
        ∀ part ∈ node.subnodes, HasSoundRatios part := by
  constructor
  · intro sound
    refine ⟨?_, fun part member n d deeper => sound n d (.part member deeper)⟩
    rintro n d rfl
    exact sound n d .self
  · rintro ⟨here, below⟩ n d within
    cases within with
    | self => exact here n d rfl
    | part member deeper => exact below _ member n d deeper

end Node

/-- No ratio in the nodes of a function divides by zero. -/
def Lambda.HasSoundRatios (function : Lambda) : Prop :=
  ∀ node ∈ function.clauses.flatMap (·.body), node.HasSoundRatios

def Form.HasSoundRatios (form : Form) : Prop :=
  ∀ numerator denominator, Within parts (.rational numerator denominator) form → denominator ≠ 0

namespace Eval

/-! ### The discipline -/

/-- A value is sound here, and if it is a closure, the ratios in its function are. -/
def LastingHere : Value → Prop
  | .closure _ function _ => function.HasSoundRatios
  | value => value.SoundHere

theorem soundHere_of_lastingHere {value : Value} (lasting : LastingHere value) :
    value.SoundHere := by
  cases value with
  | closure => trivial
  | _ => exact lasting

theorem sound_of_lasting {value : Value} (lasting : Value.Throughout LastingHere value) :
    value.Sound :=
  lasting.imp fun _ => soundHere_of_lastingHere

/-- No ratio divides by zero, and nothing occurs twice in a set or as a key of a map. -/
def soundness : Discipline where
  node _ node := node.HasSoundRatios
  function := Lambda.HasSoundRatios
  value := LastingHere
  fault _ := True
  node_of_parts sound := by
    intro part member
    exact (Node.hasSoundRatios_iff.mp sound).2 _ (Node.mem_subnodes_of_mem_parts member)
  function_of_lambda {_ created} sound := by
    intro node member
    refine (Node.hasSoundRatios_iff.mp sound).2 node ?_
    rw [← Lambda.map_parts] at member
    exact member
  node_of_function {called} sound := by
    intro part member
    refine sound part.2 ?_
    rw [← Lambda.map_parts]
    exact List.mem_map_of_mem member
  position_of_recur _ := .inr trivial
  fault_of_barred _ _ := trivial
  value_of_rational sound := (Node.hasSoundRatios_iff.mp sound).1 _ _ rfl
  value_closure := Iff.rfl
  value_plain := by
    intro plain isPlain
    cases plain with
    | rational | set | map | closure => exact isPlain.elim
    | _ => trivial
  value_emptySet := List.Pairwise.nil
  value_emptyMap := List.Pairwise.nil
  value_adjoin set added :=
    Value.unrepeated_adjoin (sound_of_lasting set) (sound_of_lasting added)
  value_insert map addedKey _ :=
    Value.unrepeated_insertEntry (map _ .self) (sound_of_lasting addedKey)
  fault_ordinary _ := trivial
  fault_thrown _ := trivial

/-! ### Machines in use -/

/-- A machine with the values that its users have come to hold. -/
structure InUse where
  machine : Machine
  held : List Value

/-- What an evaluation hands out: its value, or the value that it throws. -/
def handedOut : Except (Halt Fault) Value → List Value
  | .ok value => [value]
  | .error (.fault (.thrown value)) => [value]
  | .error _ => []

namespace InUse

/-- A new machine, whose users hold nothing. -/
def new (target : Target) : InUse :=
  ⟨.new target, []⟩

/-- After an evaluation its users also hold what it hands out. -/
def after (use : InUse) (outcome : Except (Halt Fault) Value × Machine) : InUse :=
  ⟨outcome.2, handedOut outcome.1 ++ use.held⟩

/-- What users do with a machine: they take a form as data, look at what they hold or what is
defined, evaluate a node under bindings of values that they hold, call one of them with others, or
call a function with forms as a macro is called. -/
inductive Step (use : InUse) : InUse → Prop
  | quoted {form : Form} (sound : form.HasSoundRatios) :
      Step use { use with held := .ofForm form :: use.held }
  | taken {outer part : Value} (held : outer ∈ use.held) (member : part ∈ outer.parts) :
      Step use { use with held := part :: use.held }
  | lookedUp {binding : Variable × Value} (defined : binding ∈ use.machine.globals) :
      Step use { use with held := binding.2 :: use.held }
  | evaluated (fuel : Nat) {environment : Environment} {node : Node} (sound : node.HasSoundRatios)
      (bound : ∀ binding ∈ environment, binding.2 ∈ use.held) :
      Step use (use.after (eval fuel environment node use.machine))
  | applied (fuel : Nat) {callee : Value} {args : List Value} (held : callee ∈ use.held)
      (heldArgs : ∀ arg ∈ args, arg ∈ use.held) :
      Step use (use.after (apply fuel callee args use.machine))
  | called (fuel : Nat) {function : Lambda} {args : List Form} (sound : function.HasSoundRatios)
      (soundArgs : ∀ arg ∈ args, arg.HasSoundRatios) :
      Step use (use.after (enter fuel function [] (args.map .ofForm) use.machine))

/-- What is held and what is defined keeps the discipline. -/
structure Lasting (use : InUse) : Prop where
  held : soundness.HoldsAll use.held
  globals : soundness.Binds use.machine.globals

theorem lasting_new (target : Target) : Lasting (.new target) where
  held := Discipline.holdsAll_nil
  globals := Discipline.binds_new target

variable {use next : InUse}

theorem Lasting.hold {value : Value} (lasting : Lasting use) (holds : soundness.Holds value) :
    Lasting { use with held := value :: use.held } where
  held := Discipline.holdsAll_cons.mpr ⟨holds, lasting.held⟩
  globals := lasting.globals

theorem Lasting.after {evaluation : Evaluation Value} (lasting : Lasting use)
    (keeps : soundness.Keeps evaluation) :
    Lasting (use.after (evaluation use.machine)) := by
  obtain ⟨ends, globals⟩ := keeps use.machine lasting.globals
  refine ⟨Discipline.holdsAll_append.mpr ⟨?_, lasting.held⟩, globals⟩
  intro value member
  unfold handedOut at member
  split at member
  · rename_i given
    rw [given] at ends
    exact List.mem_singleton.mp member ▸ ends
  · rename_i given
    rw [given] at ends
    exact List.mem_singleton.mp member ▸ ends.2 _ rfl
  · cases member

theorem holds_ofForm {form : Form} (sound : form.HasSoundRatios) :
    soundness.Holds (.ofForm form) :=
  Discipline.holds_ofForm fun numerator denominator inside => sound numerator denominator inside

/-- Each step keeps the discipline. -/
theorem Step.lasting (step : Step use next) (lasting : Lasting use) : Lasting next := by
  cases step with
  | quoted sound => exact lasting.hold (holds_ofForm sound)
  | taken held member => exact lasting.hold ((lasting.held _ held).below member)
  | lookedUp defined => exact lasting.hold (lasting.globals _ defined)
  | evaluated fuel sound bound =>
    refine lasting.after (Discipline.keeps_eval fuel sound ?_)
    exact fun binding member => lasting.held _ (bound binding member)
  | applied fuel held heldArgs =>
    refine lasting.after (Discipline.keeps_apply fuel (lasting.held _ held) ?_)
    exact fun arg member => lasting.held _ (heldArgs arg member)
  | called fuel sound soundArgs =>
    refine lasting.after (Discipline.keeps_enter fuel sound (List.forall_mem_nil _) ?_)
    exact List.forall_mem_map.mpr fun arg member => holds_ofForm (soundArgs arg member)

/-- So does every sequence of steps from the start. -/
theorem lasting_of_reached {target : Target}
    (reached : Relation.ReflTransGen Step (.new target) use) : Lasting use := by
  induction reached with
  | refl => exact lasting_new target
  | tail _ last ih => exact last.lasting ih

end InUse

/-! ### Sets and maps -/

/-- The elements of a set are unequal to each other, and so are the keys of a map. -/
def DistinctHere : Value → Prop
  | .set elements => elements.Pairwise fun a b => a.equal b = false ∧ b.equal a = false
  | .map entries => entries.Pairwise fun a b => a.1.equal b.1 = false ∧ b.1.equal a.1 = false
  | _ => True

theorem distinctHere_of_sound {value : Value} (sound : value.Sound) : DistinctHere value := by
  cases value with
  | set elements =>
    have unrepeated : Value.Unrepeated elements := sound _ .self
    refine unrepeated.imp_of_mem fun memberA memberB unequal => ⟨unequal, ?_⟩
    exact Value.unequal_symm (sound.below memberA).visibly (sound.below memberB).visibly unequal
  | map entries =>
    have unrepeated : Value.Unrepeated (entries.map (·.1)) := sound _ .self
    refine (List.pairwise_map.mp unrepeated).imp_of_mem fun memberA memberB unequal =>
      ⟨unequal, ?_⟩
    exact Value.unequal_symm (sound.below (Value.mem_parts_map memberA).1).visibly
      (sound.below (Value.mem_parts_map memberB).1).visibly unequal
  | _ => trivial

theorem distinct_of_holds {value inner : Value} (holds : soundness.Holds value)
    (within : Value.Within inner value) : DistinctHere inner :=
  distinctHere_of_sound fun _ deeper => sound_of_lasting holds _ (deeper.trans within)

/-- Whatever a machine is used for from the start, nothing occurs twice in a set or as a key of a
map, at any depth of the values that evaluations give or throw, of those that they are bound to or
that closures hold, and of those that are defined; as long as no ratio divides by zero in what is
evaluated and in the forms that are given as data. -/
theorem collections_distinct {target : Target} {use : InUse}
    (reached : Relation.ReflTransGen InUse.Step (.new target) use) :
    (∀ value ∈ use.held, ∀ inner, Value.Within inner value → DistinctHere inner) ∧
      ∀ binding ∈ use.machine.globals, ∀ inner, Value.Within inner binding.2 →
        DistinctHere inner := by
  have lasting := InUse.lasting_of_reached reached
  constructor
  · intro value member inner within
    exact distinct_of_holds (lasting.held value member) within
  · intro binding member inner within
    exact distinct_of_holds (lasting.globals binding member) within

/-- The call `(conj {1/2 nil, nil nil} [2/4 #{[1] (1)}])`, which replaces a key by an equal one. -/
def replacingKey : Node :=
  .application (.reference ⟨none, "conj"⟩)
    [.map [(.rational 1 2, .nil ⟨0, ()⟩), (.nil ⟨0, ()⟩, .nil ⟨0, ()⟩)],
      .vector [.rational 2 4,
        .set [.vector [.integer ⟨0, 1⟩], .list [.integer ⟨0, 1⟩]]]] false

theorem hasSoundRatios_replacingKey : replacingKey.HasSoundRatios := by
  have ratio (n d : Int64) (nonzero : d ≠ 0) : (Node.rational n d).HasSoundRatios := by
    refine Node.hasSoundRatios_iff.mpr ⟨?_, List.forall_mem_nil _⟩
    rintro _ _ ⟨⟩
    exact nonzero
  have other {node : Node} (noRatio : ∀ n d, node ≠ .rational n d)
      (below : ∀ part ∈ node.subnodes, part.HasSoundRatios) : node.HasSoundRatios :=
    Node.hasSoundRatios_iff.mpr ⟨fun n d same => (noRatio n d same).elim, below⟩
  have nothing : (Node.nil ⟨0, ()⟩).HasSoundRatios := other nofun (List.forall_mem_nil _)
  have one : (Node.integer ⟨0, 1⟩).HasSoundRatios := other nofun (List.forall_mem_nil _)
  have callee : (Node.reference ⟨none, "conj"⟩).HasSoundRatios :=
    other nofun (List.forall_mem_nil _)
  have ones : ∀ part ∈ [Node.vector [.integer ⟨0, 1⟩], .list [.integer ⟨0, 1⟩]],
      part.HasSoundRatios := by
    simp only [List.forall_mem_cons]
    exact ⟨other nofun (List.forall_mem_singleton.mpr one),
      other nofun (List.forall_mem_singleton.mpr one), List.forall_mem_nil _⟩
  have halves : ∀ part ∈ [Node.rational 1 2, .nil ⟨0, ()⟩, .nil ⟨0, ()⟩, .nil ⟨0, ()⟩],
      part.HasSoundRatios :=
    List.forall_mem_cons.mpr ⟨ratio 1 2 (by decide), by simpa using nothing⟩
  have entry : ∀ part ∈ [Node.rational 2 4,
      .set [.vector [.integer ⟨0, 1⟩], .list [.integer ⟨0, 1⟩]]], part.HasSoundRatios :=
    List.forall_mem_cons.mpr
      ⟨ratio 2 4 (by decide), List.forall_mem_singleton.mpr (other nofun ones)⟩
  refine other nofun (List.forall_mem_cons.mpr ⟨callee, List.forall_mem_cons.mpr ⟨?_, ?_⟩⟩)
  · exact other nofun halves
  · exact List.forall_mem_singleton.mpr (other nofun entry)

/-- The key `1/2` gives way to `2/4`, and the list is not added to the set with the vector. -/
theorem collections_distinct_replacingKey :
    replacingKey.HasSoundRatios ∧
      handedOut (eval 12 [] replacingKey (.new .javascript)).1 =
        [.map [(.rational 2 4, .set [.vector [.integer 1]]), (.nil, .nil)]] ∧
      ∀ value ∈ handedOut (eval 12 [] replacingKey (.new .javascript)).1,
        ∀ inner, Value.Within inner value → DistinctHere inner := by
  refine ⟨hasSoundRatios_replacingKey, ?_, ?_⟩
  · have gives : (eval 12 [] replacingKey (.new .javascript)).1 =
        .ok (.map (Value.insertEntry
          (Value.insertEntry (Value.insertEntry [] (.rational 1 2) .nil) .nil .nil)
          (.rational 2 4) (Value.setOf [.vector [.integer 1], .list [.integer 1]]))) := by
      rfl
    rw [gives]
    simp [handedOut, Value.insertEntry, Value.setOf, Value.adjoin, Value.equal,
      Value.equalElements]
  · intro value member
    have evaluated : InUse.Step (.new .javascript)
        ((InUse.new .javascript).after (eval 12 [] replacingKey (.new .javascript))) :=
      .evaluated 12 hasSoundRatios_replacingKey (List.forall_mem_nil _)
    have distinct := (collections_distinct (.single evaluated)).1
    exact distinct value (List.mem_append_left _ member)
end Eval

end ScriptLisp
