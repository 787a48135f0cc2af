import ScriptLisp.Node.Control
import ScriptLisp.Proofs.Intern
import ScriptLisp.Proofs.Node.Children

/-!
How analysis puts nodes together: every literal is taken from the tables of the session, and a call
is marked exactly where its value is that of the function or branch around it.

* `Node.seats`: the nodes in a node, and which of them are in tail position.
* `Made`: a node that is put together so, at every depth.
* `Made.holds_within`: the literals at any depth.
-/

namespace ScriptLisp

namespace Node

/-- Whether a node is a call that is marked as one in tail position. -/
def isMarked : Node → Bool
  | .application _ _ tail => tail
  | _ => false

/-- The nodes that stand directly in a node. In tail position are those whose value is the value of
the function or branch that they stand in. -/
def seats : Node → List (Position × Node)
  | .conditional branches otherwise =>
    (branches.flatMap fun branch => [(.inner, branch.1), (.tail, branch.2)]) ++
      [(.tail, otherwise)]
  | .lambda function | .macroDefinition _ function => function.parts
  | .typeDefinition _ _ _ methods | .protocolDefinition _ _ methods =>
    methods.flatMap fun method => bodyParts .tail method.body
  | node => node.subnodes.map fun part => (.inner, part)

theorem map_seats (node : Node) : node.seats.map (·.2) = node.subnodes := by
  cases node with
  | conditional | lambda | macroDefinition | typeDefinition | protocolDefinition =>
    simp [seats, subnodes, children, parts, dormant, List.map_flatMap]
  | _ => simp [seats, Function.comp_def]

/-- A node that is put together as analysis does it: its literal, if it is one, was read and is in
the tables, and exactly the calls in tail position are marked. -/
inductive Made (table : InternTable) : Position → Node → Prop
  | made {node : Node}
      (known : ∀ index literal, node.instance? = some (index, literal) →
        table.Holds index literal ∧ ∃ form : Form, form.literal? = some literal)
      (unmarked : node.isMarked = false)
      (inside : ∀ seat ∈ node.seats, Made table seat.1 seat.2) : Made table .inner node
  | marked {node : Node} (made : Made table .inner node) : Made table .tail node.inTailPosition

namespace Made

variable {table : InternTable} {node : Node}

/-- A node that is neither a literal nor a marked call is made of made nodes. -/
theorem construct (plain : node.instance? = none) (unmarked : node.isMarked = false)
    (inside : ∀ seat ∈ node.seats, Made table seat.1 seat.2) : Made table .inner node := by
  refine .made (fun index literal given => ?_) unmarked inside
  rw [plain] at given
  cases given

/-- A literal that was read and is in the tables. It is no call, so it stands in tail position as
it is. -/
theorem ofLiteral {position : Position} {form : Form} {index : Nat} {literal : Literal}
    (given : node.instance? = some (index, literal)) (holds : table.Holds index literal)
    (read : form.literal? = some literal) : Made table position node := by
  have leaf : node.seats = [] := by
    cases node <;> first | rfl | cases given
  have unmarked : node.isMarked = false := by
    cases node <;> first | rfl | cases given
  have unchanged : node.inTailPosition = node := by
    cases node <;> first | rfl | cases given
  have made : Made table .inner node := by
    refine .made (fun place other same => ?_) unmarked ?_
    · obtain ⟨rfl, rfl⟩ := Prod.mk.inj (Option.some.inj (given.symm.trans same))
      exact ⟨holds, form, read⟩
    · rw [leaf]
      exact List.forall_mem_nil _
  cases position with
  | inner => exact made
  | tail => exact unchanged ▸ made.marked

/-- A node without tail positions. -/
theorem ofSubnodes (plain : node.instance? = none) (unmarked : node.isMarked = false)
    (inner : node.seats = node.subnodes.map fun part => (.inner, part))
    (each : ∀ part ∈ node.subnodes, Made table .inner part) : Made table .inner node := by
  refine .construct plain unmarked ?_
  rw [inner]
  exact List.forall_mem_map.mpr each

theorem map {entries : List (Node × Node)}
    (each : ∀ entry ∈ entries, Made table .inner entry.1 ∧ Made table .inner entry.2) :
    Made table .inner (.map entries) := by
  refine .ofSubnodes rfl rfl rfl ?_
  simpa only [subnodes, children, parts, dormant, List.append_nil, List.map_flatMap,
    List.map_cons, List.map_nil, List.forall_mem_flatMap, List.forall_mem_cons,
    List.not_mem_nil, false_implies, implies_true, and_true] using each

theorem conditional {branches : List (Node × Node)} {otherwise : Node}
    (each : ∀ branch ∈ branches, Made table .inner branch.1 ∧ Made table .tail branch.2)
    (last : Made table .tail otherwise) : Made table .inner (.conditional branches otherwise) := by
  refine .construct rfl rfl (List.forall_mem_append.mpr ⟨?_, List.forall_mem_singleton.mpr last⟩)
  simpa only [List.forall_mem_flatMap, List.forall_mem_cons, List.not_mem_nil, false_implies,
    implies_true, and_true] using each

/-- A body in which only the last node is in tail position. -/
theorem lastInTailPosition {body : List Node} (each : ∀ node ∈ body, Made table .inner node) :
    ∀ part ∈ bodyParts .tail (Node.lastInTailPosition body), Made table part.1 part.2 := by
  match body with
  | [] => exact List.forall_mem_nil _
  | [last] => exact List.forall_mem_singleton.mpr (.marked (each last (List.mem_singleton_self _)))
  | node :: next :: rest =>
    obtain ⟨first, others⟩ := List.forall_mem_cons.mp each
    have below := lastInTailPosition others
    match following : Node.lastInTailPosition (next :: rest) with
    | [] =>
      cases rest <;> cases following
    | head :: tail =>
      rw [following] at below
      rw [Node.lastInTailPosition, following]
      · exact List.forall_mem_cons.mpr ⟨first, below⟩
      · exact List.cons_ne_nil _ _

/-- Every literal at any depth of a made node was read and is in the tables. -/
theorem holds_within {position : Position} {inner : Node} (made : Made table position node)
    (within : Within subnodes inner node) {index : Nat} {literal : Literal}
    (given : inner.instance? = some (index, literal)) :
    table.Holds index literal ∧ ∃ form : Form, form.literal? = some literal := by
  induction made with
  | made known _ _ ih =>
    cases within with
    | self => exact known index literal given
    | part member deeper =>
      rw [← map_seats] at member
      obtain ⟨seat, seated, rfl⟩ := List.mem_map.mp member
      exact ih seat seated deeper
  | @marked node _ ih =>
    -- The mark of a call changes neither what it is nor what stands in it.
    cases within with
    | self =>
      cases node with
      | application => cases given
      | _ => exact ih .self
    | part member deeper =>
      refine ih (.part ?_ deeper)
      cases node with
      | application => exact member
      | _ => exact member

end Made

end Node

end ScriptLisp
