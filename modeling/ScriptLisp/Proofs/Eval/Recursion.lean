import ScriptLisp.Node.Control
import ScriptLisp.Proofs.Eval.Keeping
import ScriptLisp.Proofs.Node.Children

/-!
Going back finds its target. A node that goes back belongs in tail position of a loop or a function:
there the loop or function goes on with the new values, and anywhere else it is a fault. Where all
nodes and all functions that can be called are placed so, the fault never occurs, and nothing that
evaluation creates is placed otherwise.

* `Node.WellPlaced`: nothing in a node goes back from outside a tail position.
* `placement`: being well placed, as a discipline.
* `Ensures`, `signals_run`: only nodes that go back, by what they are made of, ask to go back.
* `recur_finds_target`: the fault never occurs, and what is placed stays placed.
-/

namespace ScriptLisp

/-! ### Placement -/

namespace Node

/-- Everything in a node that goes back stands in tail position of the loop or function closest to
it. The position of the node itself is given. -/
def WellPlaced (position : Position) (node : Node) : Prop :=
  ∀ place args, Stands place (.recursionPoint args) position node → place = .tail

/-- The node itself does not go back from an inner position, and its parts are well placed. -/
theorem wellPlaced_iff {position : Position} {node : Node} :
    WellPlaced position node ↔
      (∀ args, node = .recursionPoint args → position = .tail) ∧
        ∀ part ∈ node.children position, WellPlaced part.1 part.2 := by
  constructor
  · intro placed
    refine ⟨?_, ?_⟩
    · rintro args rfl
      exact placed position args .self
    · intro part member place args deeper
      exact placed place args (.child member deeper)
  · rintro ⟨here, below⟩ place args stands
    cases stands with
    | self => exact here args rfl
    | child member deeper => exact below _ member place args deeper

/-- A node without parts that does not go back is well placed anywhere. -/
theorem WellPlaced.leaf {position : Position} {node : Node}
    (childless : node.children position = []) (stays : ∀ args, node ≠ .recursionPoint args) :
    WellPlaced position node := by
  refine wellPlaced_iff.mpr ⟨fun args goesBack => absurd goesBack (stays args), ?_⟩
  rw [childless]
  exact List.forall_mem_nil _

end Node

/-- The nodes of a function are well placed. -/
def Lambda.WellPlaced (function : Lambda) : Prop :=
  ∀ part ∈ function.parts, part.2.WellPlaced part.1

namespace Eval

/-- Every closure inside a value has a function whose nodes are well placed. -/
def Placed (value : Value) : Prop :=
  ∀ identity function environment,
    Value.Within (.closure identity function environment) value → function.WellPlaced

/-! ### The discipline -/

/-- The function of a value, if it is a closure, is well placed. -/
def PlacedHere : Value → Prop
  | .closure _ function _ => function.WellPlaced
  | _ => True

/-- Nodes and functions are well placed, and nothing goes back where it must not. -/
def placement : Discipline where
  node position node := node.WellPlaced position
  function := Lambda.WellPlaced
  value := PlacedHere
  fault reason := reason ≠ .recurOutsideLoop
  node_of_parts placed := by
    intro part member
    exact (Node.wellPlaced_iff.mp placed).2 part (List.mem_append_left _ member)
  function_of_lambda placed := by
    intro part member
    exact (Node.wellPlaced_iff.mp placed).2 part (List.mem_append_right _ member)
  node_of_function placed := placed
  position_of_recur placed := .inl ((Node.wellPlaced_iff.mp placed).1 _ rfl)
  fault_of_barred _ ends := by
    rintro rfl
    unfold Node.barred? at ends
    split at ends
    all_goals cases ends
  value_of_rational _ := trivial
  value_closure := Iff.rfl
  value_plain := by
    intro plain isPlain
    cases plain with
    | closure => exact isPlain.elim
    | _ => trivial
  value_emptySet := trivial
  value_emptyMap := trivial
  value_adjoin _ _ := trivial
  value_insert _ _ _ := trivial
  fault_ordinary := by
    rintro reason ordinary rfl
    exact ordinary
  fault_thrown _ := nofun

/-- What the discipline says throughout a value is said of its closures. -/
theorem holds_placement_iff {value : Value} : placement.Holds value ↔ Placed value := by
  constructor
  · intro holds identity function environment within
    exact holds _ within
  · intro placed inner within
    cases inner with
    | closure => exact placed _ _ _ within
    | _ => trivial

/-! ### Which nodes ask to go back -/

section Ensures

variable {α β : Type}

/-- An evaluation gives only results with some property, whatever the machine. -/
def Ensures (post : α → Prop) (evaluation : Evaluation α) : Prop :=
  ∀ machine result, (evaluation machine).1 = .ok result → post result

variable {post : α → Prop} {next : β → Prop}

theorem Ensures.pure {result : α} (holds : post result) : Ensures post (Pure.pure result) := by
  rintro machine _ ⟨⟩
  exact holds

theorem Ensures.fail (reason : Fault) : Ensures post (Eval.fail reason : Evaluation α) :=
  fun _ _ given => nomatch given

theorem Ensures.outOfFuel : Ensures post (throw .outOfFuel : Evaluation α) :=
  fun _ _ given => nomatch given

/-- The rule for evaluations one after the other. -/
theorem Ensures.bind {first : Evaluation α} {second : α → Evaluation β}
    (starts : Ensures post first) (goesOn : ∀ result, post result → Ensures next (second result)) :
    Ensures next (first >>= second) := by
  intro machine result given
  rw [Stateful.bind_run] at given
  rcases outcome : first machine with ⟨halt | value, after⟩
  · rw [outcome] at given
    cases given
  · rw [outcome] at given
    exact goesOn value (starts machine value (congrArg Prod.fst outcome)) after result given

/-- What the first step gives does not matter. -/
theorem Ensures.after (first : Evaluation α) {second : α → Evaluation β}
    (goesOn : ∀ result, Ensures next (second result)) : Ensures next (first >>= second) :=
  .bind (fun _ _ _ => trivial : Ensures (fun _ => True) first) fun result _ => goesOn result

/-- An ending that is observed as a result satisfies the same. -/
theorem Ensures.observe {evaluation : Evaluation α} (ensures : Ensures post evaluation) :
    Ensures (fun ending => ∀ result, ending = .ok result → post result)
      (Eval.observe evaluation) := by
  rintro machine _ ⟨⟩ result given
  exact ensures machine result given

theorem Ensures.imp {weaker : α → Prop} {evaluation : Evaluation α}
    (implies : ∀ result, post result → weaker result) (ensures : Ensures post evaluation) :
    Ensures weaker evaluation :=
  fun machine result given => implies result (ensures machine result given)

end Ensures

/-- A node asks to go back only under some condition. -/
def Signals (condition : Prop) : Flow → Prop
  | .value _ => True
  | .recur _ => condition

theorem Signals.imp {condition weaker : Prop} (implies : condition → weaker) :
    ∀ flow, Signals condition flow → Signals weaker flow
  | .value _, _ => trivial
  | .recur _, asks => implies asks

section Combinators

variable {step : Node → Evaluation Flow} {condition : Prop}

/-- Only the last node of a sequence is in tail position. -/
theorem signals_inSequence {body : List Node}
    (each : ∀ node ∈ body, Ensures (Signals (node.recurs = true)) (step node)) :
    Ensures (Signals (Node.anyRecurs body = true)) (inSequence step body) := by
  fun_induction inSequence step body with
  | case1 => exact .pure trivial
  | case2 last =>
    refine .imp (Signals.imp fun recurs => ?_) (each last List.mem_cons_self)
    rw [Node.anyRecurs, recurs, Bool.true_or]
  | case3 node rest _ ih =>
    refine .after _ fun _ => .imp (Signals.imp fun recurs => ?_) (ih fun node member => ?_)
    · rw [Node.anyRecurs, recurs, Bool.or_true]
    · exact each node (List.mem_cons_of_mem _ member)

/-- A conditional goes back only if a consequent or the alternate does; tests do not. -/
theorem signals_choose {branches : List (Node × Node)} {otherwise : Node}
    (each : ∀ branch ∈ branches, Ensures (Signals (branch.2.recurs = true)) (step branch.2))
    (last : Ensures (Signals (otherwise.recurs = true)) (step otherwise)) :
    Ensures (Signals ((Node.conditional branches otherwise).recurs = true))
      (choose step branches otherwise) := by
  induction branches with
  | nil =>
    refine .imp (Signals.imp fun recurs => ?_) last
    rw [Node.recurs, recurs, Bool.or_true]
  | cons branch rest ih =>
    obtain ⟨consequent, others⟩ := List.forall_mem_cons.mp each
    refine .after _ fun value => ?_
    split
    · refine .imp (Signals.imp fun recurs => ?_) consequent
      rw [Node.recurs, Node.anyEntryRecurs, recurs]
      simp
    · refine .imp (Signals.imp fun recurs => ?_) (ih others)
      rw [Node.recurs, Bool.or_eq_true] at recurs
      rw [Node.recurs, Node.anyEntryRecurs]
      rcases recurs with recurs | recurs
      · simp [recurs]
      · simp [recurs]

theorem signals_liftExcept {ending : Except (Halt Fault) Flow}
    (asks : ∀ flow, ending = .ok flow → Signals condition flow) :
    Ensures (Signals condition) (handled.liftExcept ending) := by
  rcases ending with (reason | _) | flow
  · exact .fail reason
  · exact .outOfFuel
  · exact .pure (asks flow rfl)

/-- A handler goes back from its body or from its clause; the part that runs at the end cannot. -/
theorem signals_handled {step : Environment → List Node → Evaluation Flow}
    {environment : Environment} {body : List Node} {handler : Option (Variable × List Node)}
    {cleanup : Option (List Node)}
    (whole : Ensures (Signals condition) (step environment body))
    (handles : ∀ clause, handler = some clause → ∀ scope,
      Ensures (Signals condition) (step scope clause.2)) :
    Ensures (Signals condition) (handled step environment body handler cleanup) := by
  refine .bind whole.observe fun ending asks => ?_
  dsimp only
  split
  case' h_1 => refine .bind (handles _ rfl _).observe ?_
  case' h_2 =>
    have uncaught : Ensures (fun ending => ∀ flow, ending = .ok flow → Signals condition flow)
        (pure ending) := .pure asks
    refine .bind uncaught ?_
  -- The cleanup has no say in how the ending goes on, caught or not.
  all_goals
    intro ending asks
    split
    · exact .outOfFuel
    · exact .after _ fun _ => signals_liftExcept asks
    · exact signals_liftExcept asks

end Combinators

/-- Only a node that goes back by what it is made of asks to go back. -/
theorem signals_run (fuel : Nat) (environment : Environment) (node : Node) :
    Ensures (Signals (node.recurs = true)) (run fuel environment node) := by
  induction fuel generalizing environment node with
  | zero => exact .outOfFuel
  | succ fuel ih =>
    cases node with
    | recursionPoint args => exact .after _ fun _ => .pure rfl
    | conditional branches otherwise =>
      exact signals_choose (fun branch _ => ih environment branch.2) (ih environment otherwise)
    | block body => exact signals_inSequence fun node _ => ih environment node
    | exceptionHandler body handler cleanup =>
      refine signals_handled ?_ ?_
      · refine .imp (Signals.imp fun recurs => ?_)
          (signals_inSequence fun node _ => ih environment node)
        rw [Node.recurs.eq_def]
        simp [recurs]
      · rintro clause rfl scope
        refine .imp (Signals.imp fun recurs => ?_)
          (signals_inSequence fun node _ => ih scope node)
        rw [Node.recurs.eq_def]
        simp [recurs]
    | nil | boolean | integer | rational | decimal | string | keyword | symbol =>
      exact .pure trivial
    | list | vector | set | map | reference | lambda => exact .after _ fun _ => .pure trivial
    | definition => exact .after _ fun _ => .after _ fun _ => .pure trivial
    | loop => exact .after _ fun _ => .after _ fun _ => .pure trivial
    | exception => exact .after _ fun _ => .fail _
    | application =>
      exact .after _ fun _ => .after _ fun _ => .after _ fun _ => .pure trivial
    | binary operator left right =>
      cases operator with
      | and =>
        refine .after _ fun _ => ?_
        split
        · exact .after _ fun _ => .pure trivial
        · exact .pure trivial
      | or =>
        refine .after _ fun _ => ?_
        split
        · exact .pure trivial
        · exact .after _ fun _ => .pure trivial
      | instanceOf => exact .after _ fun _ => .fail _
      | _ => exact .after _ fun _ => .after _ fun _ => .after _ fun _ => .pure trivial
    | unary | arithmetic => exact .after _ fun _ => .after _ fun _ => .pure trivial
    | classInstantiation | methodResolution | propertyResolution | assignment | macroDefinition
    | typeDefinition | protocolDefinition => exact .fail _

/-! ### Going back -/

/-- A node that is well placed on its own never goes back where it must not, on any machine and
under any bindings whose closures are well placed; and then the closures of the machine, of the
value and of the thrown value are well placed again. And whatever the machine, only nodes that go
back by what they are made of ask to go back. -/
theorem recur_finds_target :
    (∀ (fuel : Nat) (environment : Environment) (node : Node) (machine : Machine),
      node.WellPlaced .inner →
      (∀ binding ∈ machine.globals, Placed binding.2) →
      (∀ binding ∈ environment, Placed binding.2) →
      ∀ ending after, eval fuel environment node machine = (ending, after) →
        ending ≠ .error (.fault .recurOutsideLoop) ∧
        (∀ value, ending = .ok value → Placed value) ∧
        (∀ thrown, ending = .error (.fault (.thrown thrown)) → Placed thrown) ∧
        ∀ binding ∈ after.globals, Placed binding.2) ∧
    ∀ (fuel : Nat) (environment : Environment) (node : Node) (machine after : Machine)
      (values : List Value), run fuel environment node machine = (.ok (.recur values), after) →
      node.recurs = true := by
  constructor
  · intro fuel environment node machine placed globals bound ending after evaluated
    simp only [← holds_placement_iff] at globals bound ⊢
    have keeps := Discipline.keeps_eval fuel placed bound machine globals
    rw [evaluated] at keeps
    obtain ⟨ends, boundAfter⟩ := keeps
    refine ⟨?_, ?_, ?_, boundAfter⟩
    · rintro rfl
      exact ends.1 rfl
    · rintro value rfl
      exact ends
    · rintro thrown rfl
      exact ends.2 thrown rfl
  · intro fuel environment node machine after values asks
    exact signals_run fuel environment node machine (.recur values) (congrArg Prod.fst asks)

/-- The function `(fn [x] (if x (recur nil) x))`. -/
def untilFalse : Lambda :=
  .single (.mk ⟨[⟨none, "x"⟩], none⟩
    [.conditional [(.reference ⟨none, "x"⟩, .recursionPoint [.nil ⟨0, ()⟩])]
      (.reference ⟨none, "x"⟩)])

/-- The loop `(loop [x true] (try (if x (recur (f x)) x) (catch e (recur e))))`. -/
def handledLoop : Node :=
  .loop [(⟨none, "x"⟩, .boolean ⟨0, true⟩)]
    [.exceptionHandler
      [.conditional
        [(.reference ⟨none, "x"⟩,
          .recursionPoint [.application (.reference ⟨none, "f"⟩) [.reference ⟨none, "x"⟩] false])]
        (.reference ⟨none, "x"⟩)]
      (some (⟨none, "e"⟩, [.recursionPoint [.reference ⟨none, "e"⟩]])) none]

theorem wellPlaced_untilFalse : untilFalse.WellPlaced := by
  have named (position : Position) : Node.WellPlaced position (.reference ⟨none, "x"⟩) :=
    .leaf rfl nofun
  have back : Node.WellPlaced .tail (.recursionPoint [.nil ⟨0, ()⟩]) :=
    Node.wellPlaced_iff.mpr ⟨fun _ _ => rfl, List.forall_mem_singleton.mpr (.leaf rfl nofun)⟩
  refine List.forall_mem_singleton.mpr (Node.wellPlaced_iff.mpr ⟨nofun, ?_⟩)
  exact List.forall_mem_cons.mpr ⟨named _,
    List.forall_mem_cons.mpr ⟨back, List.forall_mem_singleton.mpr (named _)⟩⟩

theorem wellPlaced_handledLoop : handledLoop.WellPlaced .inner := by
  have named (position : Position) (name : Variable) :
      Node.WellPlaced position (.reference name) :=
    .leaf rfl nofun
  have call : Node.WellPlaced .inner
      (.application (.reference ⟨none, "f"⟩) [.reference ⟨none, "x"⟩] false) :=
    Node.wellPlaced_iff.mpr ⟨nofun, List.forall_mem_cons.mpr
      ⟨named _ _, List.forall_mem_singleton.mpr (named _ _)⟩⟩
  have back (arg : Node) (placed : Node.WellPlaced .inner arg) :
      Node.WellPlaced .tail (.recursionPoint [arg]) :=
    Node.wellPlaced_iff.mpr ⟨fun _ _ => rfl, List.forall_mem_singleton.mpr placed⟩
  refine Node.wellPlaced_iff.mpr ⟨nofun, List.forall_mem_cons.mpr ⟨.leaf rfl nofun, ?_⟩⟩
  refine List.forall_mem_singleton.mpr (Node.wellPlaced_iff.mpr ⟨nofun, ?_⟩)
  refine List.forall_mem_cons.mpr ⟨?_, List.forall_mem_singleton.mpr (back _ (named _ _))⟩
  refine Node.wellPlaced_iff.mpr ⟨nofun, List.forall_mem_cons.mpr ⟨named _ _, ?_⟩⟩
  exact List.forall_mem_cons.mpr ⟨back _ call, List.forall_mem_singleton.mpr (named _ _)⟩

/-- The loop goes back once, by way of the function, and ends. -/
theorem recur_finds_target_handledLoop :
    handledLoop.WellPlaced .inner ∧ untilFalse.WellPlaced ∧
    (eval 15 [(⟨none, "f"⟩, .closure 0 untilFalse [])] handledLoop (.new .javascript)).1 =
      .ok .nil ∧
    (∀ ending after, eval 15 [(⟨none, "f"⟩, .closure 0 untilFalse [])] handledLoop
        (.new .javascript) = (ending, after) →
      ending ≠ .error (.fault .recurOutsideLoop) ∧ ∀ binding ∈ after.globals, Placed binding.2) ∧
    (Node.recursionPoint [.nil ⟨0, ()⟩]).recurs = true := by
  refine ⟨wellPlaced_handledLoop, wellPlaced_untilFalse, rfl, ?_, ?_⟩
  · intro ending after evaluated
    have placed :=
      recur_finds_target.1 15 _ handledLoop _ wellPlaced_handledLoop ?_ ?_ _ _ evaluated
    · exact ⟨placed.1, placed.2.2.2⟩
    · intro binding member
      exact holds_placement_iff.mp (Discipline.binds_new .javascript binding member)
    · refine List.forall_mem_singleton.mpr (holds_placement_iff.mp ?_)
      exact Value.throughout_closure.mpr ⟨wellPlaced_untilFalse, List.forall_mem_nil _⟩
  · exact recur_finds_target.2 2 [] (.recursionPoint [.nil ⟨0, ()⟩]) (.new .javascript)
      (.new .javascript) [.nil] rfl

end Eval

end ScriptLisp
