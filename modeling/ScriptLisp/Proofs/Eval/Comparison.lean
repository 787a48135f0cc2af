import Mathlib.Data.List.Forall2
import Mathlib.Logic.Relation
import ScriptLisp.Eval.Run
import ScriptLisp.Proofs.Node.Children
import ScriptLisp.Proofs.Stateful

/-!
Comparing two evaluations. A comparison says which values and faults are alike, and two evaluations
are alike if they end alike on all machines that are alike, and leave such machines. What follows
about the evaluator as a whole is proved once for all comparisons; each of them only has to say what
it compares.

* `Machine.Step`: the three kinds of change that an evaluation makes to a machine.
* `Comparison`: what is alike, and how far the comparison goes.
* `Comparison.Kind`: results of one kind, such as values or bindings, and which of them are alike.
* `Comparison.Alike`: two evaluations that are alike.
* `Alike.pure`, `Alike.bind`, `Alike.fail`, ...: one rule for each way to build an evaluation.
-/

namespace ScriptLisp.Eval

/-! ### Changes of a machine -/

/-- One change of a machine. -/
inductive Machine.Step (machine : Machine) : Machine → Prop
  | defined (name : Variable) (value : Value) : Step machine (machine.define name value)
  | generated : Step machine { machine with gensyms := machine.gensyms + 1 }
  | created : Step machine { machine with closures := machine.closures + 1 }

/-- Any number of changes of a machine. -/
abbrev Machine.Steps : Machine → Machine → Prop :=
  Relation.ReflTransGen Machine.Step

/-- No change lowers a counter. -/
theorem counters_le_of_steps {machine after : Machine} (steps : machine.Steps after) :
    machine.gensyms ≤ after.gensyms ∧ machine.closures ≤ after.closures := by
  induction steps with
  | refl => exact ⟨Nat.le_refl _, Nat.le_refl _⟩
  | tail _ last ih =>
    cases last with
    | defined => exact ih
    | generated => exact ⟨Nat.le_succ_of_le ih.1, ih.2⟩
    | created => exact ⟨ih.1, Nat.le_succ_of_le ih.2⟩

/-! ### Comparisons -/

/-- Everything has something that is like it: values, faults, identities and the count of them. -/
structure Exhaustive (values : Value → Value → Prop) (faults : Fault → Fault → Prop)
    (identities counts : Nat → Nat → Prop) (closures : Nat) : Prop where
  value (first : Value) : ∃ second, values first second
  fault (first : Fault) : ∃ second, faults first second
  identity (first : Nat) : ∃ second, identities first second
  count : ∃ second, counts closures second
  recur : faults .recurOutsideLoop .recurOutsideLoop

/-- What two evaluations of programs have in common. -/
structure Comparison where
  value : Value → Value → Prop
  fault : Fault → Fault → Prop
  identity : Nat → Nat → Prop
  /-- How many identities the two machines have handed out. -/
  count : Nat → Nat → Prop
  /-- Whether the first evaluation may run out of fuel where the second goes on. -/
  lenient : Prop
  /-- A first machine that has handed out so many identities is not compared any more. -/
  beyond : Nat → Prop
  beyond_of_le {few many : Nat} (most : few ≤ many) (far : beyond few) : beyond many
  /-- From there on only the count is followed, by comparing with anything that is alike; so there
  has to be something like everything. -/
  total {closures : Nat} (far : beyond closures) : Exhaustive value fault identity count closures
  count_succ {first second : Nat} (counts : count first second) :
    beyond (first + 1) ∨ identity (first + 1) (second + 1) ∧ count (first + 1) (second + 1)

namespace Comparison

variable (c : Comparison) {α β γ δ : Type}

/-- Sequences of values that are alike one by one. -/
abbrev Values : List Value → List Value → Prop :=
  List.Forall₂ c.value

/-- Bindings of the same variable to values that are alike. -/
def Binding (first second : Variable × Value) : Prop :=
  first.1 = second.1 ∧ c.value first.2 second.2

/-- Bindings that are alike one by one. -/
abbrev Binds : Environment → Environment → Prop :=
  List.Forall₂ c.Binding

/-- Entries whose keys and values are alike. -/
abbrev Entries : List (Value × Value) → List (Value × Value) → Prop :=
  List.Forall₂ fun first second => c.value first.1 second.1 ∧ c.value first.2 second.2

/-- Two machines that are alike. -/
structure Machines (first second : Machine) : Prop where
  globals : c.Binds first.globals second.globals
  gensyms : first.gensyms = second.gensyms
  count : c.count first.closures second.closures

/-- Two results without a machine that are alike. -/
inductive Answers (alike : α → β → Prop) : Except Fault α → Except Fault β → Prop
  | ok {first : α} {second : β} (same : alike first second) : Answers alike (.ok first) (.ok second)
  | error {first second : Fault} (same : c.fault first second) :
      Answers alike (.error first) (.error second)

/-- Two endings that are alike. -/
inductive Endings (alike : α → β → Prop) :
    Except (Halt Fault) α → Except (Halt Fault) β → Prop
  | ok {first : α} {second : β} (same : alike first second) : Endings alike (.ok first) (.ok second)
  | fault {first second : Fault} (same : c.fault first second) :
      Endings alike (.error (.fault first)) (.error (.fault second))
  | outOfFuel : Endings alike (.error .outOfFuel) (.error .outOfFuel)

/-- Two nodes in the same position that end alike. They may ask to go back in tail position, and
anywhere if that fails alike. -/
inductive Flows (position : Position) : Flow → Flow → Prop
  | value {first second : Value} (same : c.value first second) :
      Flows position (.value first) (.value second)
  | recur {first second : List Value}
      (allowed : position = .tail ∨ c.fault .recurOutsideLoop .recurOutsideLoop)
      (same : c.Values first second) : Flows position (.recur first) (.recur second)

/-! ### Kinds of results -/

/-- Which results are alike. Where a comparison may end, every result has one that is like it. -/
structure Kind (α β : Type) where
  alike : α → β → Prop
  total {closures : Nat} (far : c.beyond closures) (first : α) : ∃ second, alike first second

end Comparison

/-- Sequences that are alike one by one, where being alike is to be the image of a function. -/
theorem forall₂_iff_map {α β : Type} {alike : α → β → Prop} {f : α → β}
    (each : ∀ first second, alike first second ↔ f first = second) {first : List α}
    {second : List β} : List.Forall₂ alike first second ↔ first.map f = second := by
  rw [← List.forall₂_eq_eq_eq, List.forall₂_map_left_iff]
  exact ⟨List.Forall₂.imp fun a b => (each a b).mp, List.Forall₂.imp fun a b => (each a b).mpr⟩

/-- What is total for one is total for sequences. -/
theorem exists_forall₂ {α β : Type} {alike : α → β → Prop}
    (total : ∀ first, ∃ second, alike first second) (first : List α) :
    ∃ second, List.Forall₂ alike first second := by
  induction first with
  | nil => exact ⟨[], .nil⟩
  | cons head rest ih =>
    obtain ⟨other, same⟩ := total head
    obtain ⟨others, sameRest⟩ := ih
    exact ⟨other :: others, .cons same sameRest⟩

namespace Comparison

variable {c : Comparison} {α β γ δ : Type}

/-- Where a comparison may end, all bindings have some that are like them. -/
theorem exists_binds {closures : Nat} (far : c.beyond closures) (first : Environment) :
    ∃ second, c.Binds first second := by
  refine exists_forall₂ (fun binding => ?_) first
  obtain ⟨other, same⟩ := (c.total far).value binding.2
  exact ⟨(binding.1, other), rfl, same⟩

/-- A machine that is not compared any more still has one that is like it. -/
theorem exists_machine {machine : Machine} (far : c.beyond machine.closures) :
    ∃ other, c.Machines machine other := by
  obtain ⟨globals, bound⟩ := exists_binds far machine.globals
  obtain ⟨count, counts⟩ := (c.total far).count
  exact ⟨⟨globals, machine.gensyms, count⟩, bound, rfl, counts⟩

namespace Kind

def value : c.Kind Value Value where
  alike := c.value
  total far := (c.total far).value

def values : c.Kind (List Value) (List Value) where
  alike := c.Values
  total far := exists_forall₂ (c.total far).value

def entries : c.Kind (List (Value × Value)) (List (Value × Value)) where
  alike := c.Entries
  total far := by
    refine exists_forall₂ fun entry => ?_
    obtain ⟨key, sameKey⟩ := (c.total far).value entry.1
    obtain ⟨item, sameItem⟩ := (c.total far).value entry.2
    exact ⟨(key, item), sameKey, sameItem⟩

def environment : c.Kind Environment Environment where
  alike := c.Binds
  total := exists_binds

/-- Machines are looked up for their definitions only. -/
def machine : c.Kind Machine Machine where
  alike first second := c.Binds first.globals second.globals
  total far first := by
    obtain ⟨globals, bound⟩ := exists_binds far first.globals
    exact ⟨{ first with globals }, bound⟩

def identity : c.Kind Nat Nat where
  alike := c.identity
  total far := (c.total far).identity

def flow (position : Position) : c.Kind Flow Flow where
  alike := c.Flows position
  total far first := by
    cases first with
    | value result =>
      obtain ⟨other, same⟩ := (c.total far).value result
      exact ⟨.value other, .value same⟩
    | recur results =>
      obtain ⟨others, same⟩ := exists_forall₂ (c.total far).value results
      exact ⟨.recur others, .recur (.inr (c.total far).recur) same⟩

/-- Results that are the same in both places. -/
def same : c.Kind α α where
  alike := Eq
  total _ first := ⟨first, rfl⟩

/-- The endings of evaluations with results of this kind. -/
def ending (kind : c.Kind α β) : c.Kind (Except (Halt Fault) α) (Except (Halt Fault) β) where
  alike := c.Endings kind.alike
  total far first := by
    rcases first with (reason | _) | result
    · obtain ⟨other, same⟩ := (c.total far).fault reason
      exact ⟨.error (.fault other), .fault same⟩
    · exact ⟨.error .outOfFuel, .outOfFuel⟩
    · obtain ⟨other, same⟩ := kind.total far result
      exact ⟨.ok other, .ok same⟩

end Kind

/-! ### Evaluations -/

variable (c) in
/-- How two evaluations come out: alike, unless the first one is not compared so far. -/
inductive Agree (kind : c.Kind α β) :
    Except (Halt Fault) α × Machine → Except (Halt Fault) β × Machine → Prop
  | beyond {ending : Except (Halt Fault) α} {after : Machine}
      {other : Except (Halt Fault) β × Machine} (far : c.beyond after.closures) :
      Agree kind (ending, after) other
  | outOfFuel {after : Machine} {other : Except (Halt Fault) β × Machine} (lenient : c.lenient) :
      Agree kind (.error .outOfFuel, after) other
  | ended {first : Except (Halt Fault) α} {second : Except (Halt Fault) β}
      {after otherAfter : Machine} (endings : c.Endings kind.alike first second)
      (machines : c.Machines after otherAfter) : Agree kind (first, after) (second, otherAfter)

variable (c) in
/-- Two evaluations take machines that are alike through steps, and come out alike. -/
def Alike (kind : c.Kind α β) (first : Evaluation α) (second : Evaluation β) : Prop :=
  ∀ machine other, c.Machines machine other →
    machine.Steps (first machine).2 ∧ c.Agree kind (first machine) (second other)

namespace Alike

variable {kind : c.Kind α β} {other : c.Kind γ δ}

theorem pure {first : α} {second : β} (same : kind.alike first second) :
    c.Alike kind (Pure.pure first) (Pure.pure second) :=
  fun _ _ machines => ⟨.refl, .ended (.ok same) machines⟩

theorem fail {first second : Fault} (same : c.fault first second) :
    c.Alike kind (Eval.fail first) (Eval.fail second) :=
  fun _ _ machines => ⟨.refl, .ended (.fault same) machines⟩

theorem outOfFuel : c.Alike kind (throw .outOfFuel) (throw .outOfFuel) :=
  fun _ _ machines => ⟨.refl, .ended .outOfFuel machines⟩

/-- Running out of fuel early. -/
theorem outOfFuel_left (lenient : c.lenient) (second : Evaluation β) :
    c.Alike kind (throw .outOfFuel) second :=
  fun _ _ _ => ⟨.refl, .outOfFuel lenient⟩

/-- Two evaluations in sequence. -/
theorem bind {first : Evaluation α} {second : Evaluation β} {next : α → Evaluation γ}
    {nextOther : β → Evaluation δ} (starts : c.Alike kind first second)
    (goesOn : ∀ result otherResult, kind.alike result otherResult →
      c.Alike other (next result) (nextOther otherResult)) :
    c.Alike other (first >>= next) (second >>= nextOther) := by
  intro machine start machines
  obtain ⟨steps, agree⟩ := starts machine start machines
  rw [Stateful.bind_run, Stateful.bind_run]
  generalize first machine = ran, second start = ranOther at steps agree ⊢
  cases agree with
  | @beyond ending after _ far =>
    rcases ending with halt | result
    · exact ⟨steps, .beyond far⟩
    · -- What comes next is not compared, but only ever raises the count.
      obtain ⟨_, same⟩ := kind.total far result
      obtain ⟨_, machines⟩ := exists_machine far
      obtain ⟨further, -⟩ := goesOn _ _ same _ _ machines
      exact ⟨steps.trans further, .beyond (c.beyond_of_le (counters_le_of_steps further).2 far)⟩
  | outOfFuel lenient => exact ⟨steps, .outOfFuel lenient⟩
  | ended endings machines =>
    cases endings with
    | ok same =>
      obtain ⟨further, agree⟩ := goesOn _ _ same _ _ machines
      exact ⟨steps.trans further, agree⟩
    | fault same => exact ⟨steps, .ended (.fault same) machines⟩
    | outOfFuel => exact ⟨steps, .ended .outOfFuel machines⟩

/-- An ending that was observed may be used, provided that running out of fuel is not hidden. -/
theorem observe_bind {first : Evaluation α} {second : Evaluation β}
    {next : Except (Halt Fault) α → Evaluation γ}
    {nextOther : Except (Halt Fault) β → Evaluation δ} (starts : c.Alike kind first second)
    (out : next (.error .outOfFuel) = throw .outOfFuel)
    (goesOn : ∀ ending otherEnding, c.Endings kind.alike ending otherEnding →
      c.Alike other (next ending) (nextOther otherEnding)) :
    c.Alike other (observe first >>= next) (observe second >>= nextOther) := by
  intro machine start machines
  obtain ⟨steps, agree⟩ := starts machine start machines
  change machine.Steps (next (first machine).1 (first machine).2).2 ∧
    c.Agree other (next (first machine).1 (first machine).2)
      (nextOther (second start).1 (second start).2)
  generalize first machine = ran, second start = ranOther at steps agree ⊢
  cases agree with
  | @beyond ending after _ far =>
    obtain ⟨_, same⟩ := kind.ending.total far ending
    obtain ⟨_, machines⟩ := exists_machine far
    obtain ⟨further, -⟩ := goesOn _ _ same _ _ machines
    exact ⟨steps.trans further, .beyond (c.beyond_of_le (counters_le_of_steps further).2 far)⟩
  | outOfFuel lenient =>
    rw [out]
    exact ⟨steps, .outOfFuel lenient⟩
  | ended endings machines =>
    obtain ⟨further, agree⟩ := goesOn _ _ endings _ _ machines
    exact ⟨steps.trans further, agree⟩

/-- A result that needs no machine. -/
theorem lift {first : Except Fault α} {second : Except Fault β}
    (same : c.Answers kind.alike first second) :
    c.Alike kind (Eval.lift first) (Eval.lift second) := by
  cases same with
  | ok same => exact pure same
  | error same => exact fail same

theorem get : c.Alike .machine MonadState.get MonadState.get :=
  fun _ _ machines => ⟨.refl, .ended (.ok machines.globals) machines⟩

/-- A generated name depends on a counter that is the same on both machines. -/
theorem generateName (start : String) :
    c.Alike .same (Eval.generateName start) (Eval.generateName start) := by
  intro machine other machines
  refine ⟨.single .generated, ?_⟩
  have next : machine.gensyms + 1 = other.gensyms + 1 := congrArg (· + 1) machines.gensyms
  exact .ended (.ok (congrArg (start ++ toString ·) next)) ⟨machines.globals, next, machines.count⟩

/-- The identities that are handed out are alike, unless this is too many of them. -/
theorem newIdentity : c.Alike .identity Eval.newIdentity Eval.newIdentity := by
  intro machine other machines
  refine ⟨.single .created, ?_⟩
  rcases c.count_succ machines.count with far | ⟨same, counts⟩
  · exact .beyond far
  · exact .ended (.ok same) ⟨machines.globals, machines.gensyms, counts⟩

end Alike

/-! ### Bindings -/

/-- An older binding of the variable is dropped in both places. -/
theorem Binds.set {first second : Environment} {value other : Value} (bound : c.Binds first second)
    (name : Variable) (same : c.value value other) :
    c.Binds (first.set name value) (second.set name other) := by
  refine .cons ⟨rfl, same⟩ (List.rel_filter (fun binding otherBinding alike => ?_) bound)
  dsimp only
  rw [alike.1]

theorem Binds.setAll {first second : Environment} {values others : List Value}
    (bound : c.Binds first second) (names : List Variable) (same : c.Values values others) :
    c.Binds (first.setAll names values) (second.setAll names others) := by
  induction names generalizing first second values others with
  | nil => exact bound
  | cons name names ih =>
    cases same with
    | nil => exact bound
    | cons same rest => exact ih (bound.set name same) rest

/-- A variable is bound in both places or in none. -/
theorem Binds.lookup {first second : Environment} (bound : c.Binds first second)
    (name : Variable) : Option.Rel c.value (first.lookup name) (second.lookup name) := by
  induction bound with
  | nil => exact .none
  | @cons binding other _ _ same _ ih =>
    obtain ⟨names, values⟩ := same
    rw [List.lookup_cons, List.lookup_cons, names]
    cases name == other.1 with
    | true => exact .some values
    | false => exact ih

theorem Alike.define {value other : Value} (name : Variable) (same : c.value value other) :
    c.Alike .same (Eval.define name value) (Eval.define name other) :=
  fun _ _ machines => ⟨.single (.defined name value),
    .ended (.ok rfl) ⟨machines.globals.set name same, machines.gensyms, machines.count⟩⟩

end Comparison

end ScriptLisp.Eval
