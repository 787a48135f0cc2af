import ScriptLisp.Proofs.Analysis.Making

/-!
Marks of calls. A call in an analyzed form is marked exactly if it is a branch of a conditional, or
the last node in the body of a function or method; so the form itself is not, and nothing is that
stands in an operand, in a block, loop or handler, or earlier in a body. This holds at every depth,
in the code of macros, types and protocols too, and whatever macros the form goes through.

* `Node.Concludes`: the nodes whose value is that of the branch or function they stand in.
* `Node.tail_mem_seats_iff`: these are the nodes in tail position.
* `Session.marks_exact`: which calls of an analyzed form are marked.
-/

namespace ScriptLisp

/-! ### Tail positions -/

/-- In a body only the last node is in tail position. -/
theorem Node.tail_mem_bodyParts_iff {body : List Node} {node : Node} :
    (.tail, node) ∈ bodyParts .tail body ↔ body.getLast? = some node := by
  match body with
  | [] => simp [bodyParts]
  | [last] => simp [bodyParts, eq_comm]
  | first :: next :: rest =>
    have below : (.tail, node) ∈ bodyParts .tail (next :: rest) ↔
        (next :: rest).getLast? = some node := tail_mem_bodyParts_iff
    simp [bodyParts, below]

theorem Lambda.tail_mem_parts_iff {function : Lambda} {node : Node} :
    (.tail, node) ∈ function.parts ↔
      ∃ clause ∈ function.clauses, clause.body.getLast? = some node := by
  simp [Lambda.parts, Node.tail_mem_bodyParts_iff]

namespace Node

/-- `Concludes node outer`: the node is a branch of the conditional `outer`, or the last in the body
of a function or method of `outer`. -/
inductive Concludes (node : Node) : Node → Prop
  | consequent {branches : List (Node × Node)} {otherwise test : Node}
      (branch : (test, node) ∈ branches) : Concludes node (.conditional branches otherwise)
  | default {branches : List (Node × Node)} : Concludes node (.conditional branches node)
  | function {function : Lambda} {clause : Clause} (member : clause ∈ function.clauses)
      (last : clause.body.getLast? = some node) : Concludes node (.lambda function)
  | macroFunction {name : Name} {function : Lambda} {clause : Clause}
      (member : clause ∈ function.clauses) (last : clause.body.getLast? = some node) :
      Concludes node (.macroDefinition name function)
  | typeMethod {name : Variable} {attributes protocols : List Variable} {methods : List Method}
      {method : Method} (member : method ∈ methods) (last : method.body.getLast? = some node) :
      Concludes node (.typeDefinition name attributes protocols methods)
  | protocolMethod {name : Variable} {protocols : List Variable} {methods : List Method}
      {method : Method} (member : method ∈ methods) (last : method.body.getLast? = some node) :
      Concludes node (.protocolDefinition name protocols methods)

/-- The nodes in tail position are those that conclude. -/
theorem tail_mem_seats_iff {node outer : Node} :
    (.tail, node) ∈ outer.seats ↔ node.Concludes outer := by
  constructor
  · intro seated
    cases outer with
    | conditional branches otherwise =>
      simp only [seats, List.mem_append, List.mem_flatMap, List.mem_cons, List.not_mem_nil,
        or_false, Prod.mk.injEq, reduceCtorEq, false_and, true_and, false_or] at seated
      rcases seated with ⟨branch, member, rfl⟩ | rfl
      · exact .consequent member
      · exact .default
    | lambda function =>
      obtain ⟨clause, member, last⟩ := Lambda.tail_mem_parts_iff.mp seated
      exact .function member last
    | macroDefinition name function =>
      obtain ⟨clause, member, last⟩ := Lambda.tail_mem_parts_iff.mp seated
      exact .macroFunction member last
    | typeDefinition name attributes protocols methods =>
      obtain ⟨method, member, last⟩ := List.mem_flatMap.mp seated
      exact .typeMethod member (tail_mem_bodyParts_iff.mp last)
    | protocolDefinition name protocols methods =>
      obtain ⟨method, member, last⟩ := List.mem_flatMap.mp seated
      exact .protocolMethod member (tail_mem_bodyParts_iff.mp last)
    | _ => simp [seats] at seated
  · intro concludes
    cases concludes with
    | consequent branch =>
      exact List.mem_append_left _ (List.mem_flatMap.mpr
        ⟨_, branch, List.mem_cons_of_mem _ List.mem_cons_self⟩)
    | default => exact List.mem_append_right _ List.mem_cons_self
    | function member last | macroFunction member last =>
      exact Lambda.tail_mem_parts_iff.mpr ⟨_, member, last⟩
    | typeMethod member last | protocolMethod member last =>
      exact List.mem_flatMap.mpr ⟨_, member, tail_mem_bodyParts_iff.mpr last⟩

/-! ### Marks -/

namespace Made

variable {table : InternTable} {position : Position} {node outer : Node}

/-- What stands at any depth of a made node is made for its position. -/
theorem of_seat (made : Made table position node) (within : Within subnodes outer node) :
    ∀ seat ∈ outer.seats, Made table seat.1 seat.2 := by
  induction made generalizing outer with
  | made _ _ inside ih =>
    cases within with
    | self => exact inside
    | part member deeper =>
      rw [← map_seats] at member
      obtain ⟨seat, seated, rfl⟩ := List.mem_map.mp member
      exact ih seat seated deeper
  | @marked node made ih =>
    -- The mark of a call changes nothing about what stands in it.
    cases within with
    | self =>
      have before := ih .self
      cases node with
      | application => exact before
      | _ => exact before
    | part member deeper =>
      refine ih (.part ?_ deeper)
      cases node with
      | application => exact member
      | _ => exact member

/-- A made call is marked exactly in tail position. -/
theorem marked_iff {callee : Node} {args : List Node} {mark : Bool}
    (made : Made table position (.application callee args mark)) :
    mark = true ↔ position = .tail := by
  cases position with
  | inner =>
    cases made with
    | made _ unmarked _ => simpa [isMarked] using unmarked
  | tail =>
    generalize same : Node.application callee args mark = node at made
    cases made with
    | @marked node _ =>
      cases node with
      | application =>
        cases same
        simp
      | _ => cases same

end Made

end Node

namespace Session

open Node

/-- The form itself is not marked. Of all that stands in it, at any depth, exactly the calls in tail
position are, and these are the ones that conclude what they stand in. -/
theorem marks_exact {fuel : Nat} {form : Form} {session after : Session} {root : Node}
    (accepted : Analysis.analyze fuel form session = (.ok root, after)) :
    root.isMarked = false ∧
      ∀ outer, Within subnodes outer root →
        (∀ node, (.tail, node) ∈ outer.seats ↔ node.Concludes outer) ∧
          ∀ seat ∈ outer.seats, ∀ callee args mark, seat.2 = .application callee args mark →
            (mark = true ↔ seat.1 = .tail) := by
  have step := Analysis.yields_analyze after.interned fuel True form session fun _ => trivial
  rw [accepted] at step
  have made : Made after.interned .inner root := step.2.2 (.refl _) root rfl
  constructor
  · cases made with
    | made _ unmarked _ => exact unmarked
  · intro outer within
    refine ⟨fun _ => tail_mem_seats_iff, ?_⟩
    intro seat seated callee args mark same
    have madeSeat := made.of_seat within seat seated
    rw [same] at madeSeat
    exact madeSeat.marked_iff

/-- `(fn [] (f (g)) (if (p) (q (g)) (do (r))))`. -/
def callsInFunction : Form :=
  .list [.symbol "fn", .vector [], .list [.symbol "f", .list [.symbol "g"]],
    .list [.symbol "if", .list [.symbol "p"], .list [.symbol "q", .list [.symbol "g"]],
      .list [.symbol "do", .list [.symbol "r"]]]]

/-- The branch `(q (g))` is the only marked call. -/
theorem marks_exact_callsInFunction :
    ∃ root after, Analysis.analyze 6 callsInFunction (new .ruby) = (.ok root, after) ∧
      root.isMarked = false ∧
      (∀ outer, Within subnodes outer root → ∀ seat ∈ outer.seats, ∀ callee args mark,
        seat.2 = .application callee args mark → (mark = true ↔ seat.1 = .tail)) ∧
      Within subnodes (.application (.reference ⟨none, "q"⟩)
        [.application (.reference ⟨none, "g"⟩) [] false] true) root := by
  have accepted : Analysis.analyze 6 callsInFunction (new .ruby) = (.ok _, _) := rfl
  obtain ⟨unmarked, exactly⟩ := marks_exact accepted
  refine ⟨_, _, accepted, unmarked, fun outer within => (exactly outer within).2, ?_⟩
  exact .part (List.mem_cons_of_mem _ List.mem_cons_self)
    (.part (List.mem_cons_of_mem _ List.mem_cons_self) .self)

end Session

end ScriptLisp
