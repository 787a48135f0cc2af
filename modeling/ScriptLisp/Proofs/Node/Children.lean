import ScriptLisp.Node.Basic

/-!
Nodes inside nodes. Every node holds the nodes it is made of: those that are evaluated as its parts,
and those that stand in it for something else, such as the body of a function or the arguments of a
construct without a meaning at compile time. Each child has a position, which is its place in the
loop or function around it.

* `Position`, `parts`: where a node stands, and the nodes that are evaluated as its parts.
* `children`: all nodes that stand directly in a node, with their positions.
* `Within`: a node at any depth of another, along chosen children.
* `Stands`: a node at any depth of another, with its position there.
-/

namespace ScriptLisp

/-! ### Positions -/

/-- Where a node stands: its ending is the ending of the loop or function around it, or it must
have a value. -/
inductive Position where
  | tail
  | inner
deriving DecidableEq, Repr

namespace Node

/-- The nodes of a body with their positions: all but the last must have values. -/
def bodyParts (position : Position) : List Node → List (Position × Node)
  | [] => []
  | [last] => [(position, last)]
  | node :: rest => (.inner, node) :: bodyParts position rest

/-- The nodes that are evaluated as parts of a node, with their positions. The body of a function
is no part of the node that creates it. -/
def parts (position : Position) : Node → List (Position × Node)
  | .vector nodes | .set nodes | .list nodes | .recursionPoint nodes | .arithmetic _ nodes =>
    nodes.map fun node => (.inner, node)
  | .map entries => entries.flatMap fun entry => [(.inner, entry.1), (.inner, entry.2)]
  | .definition _ value => [(.inner, value)]
  | .conditional branches otherwise =>
    (branches.flatMap fun branch => [(.inner, branch.1), (position, branch.2)]) ++
      [(position, otherwise)]
  | .block body => bodyParts position body
  | .loop bindings body => (bindings.map fun binding => (.inner, binding.2)) ++ bodyParts .tail body
  | .exceptionHandler body handler cleanup =>
    bodyParts position body ++ handler.elim [] (fun clause => bodyParts position clause.2) ++
      cleanup.elim [] (bodyParts .inner)
  | .exception expression => [(.inner, expression)]
  | .application invocable args _ => (.inner, invocable) :: args.map fun node => (.inner, node)
  | .binary _ left right => [(.inner, left), (.inner, right)]
  | .unary _ operand => [(.inner, operand)]
  | _ => []

end Node

/-- The nodes of all clauses of a function with their positions. -/
def Lambda.parts (function : Lambda) : List (Position × Node) :=
  function.clauses.flatMap fun clause => Node.bodyParts .tail clause.body

/-! ### Children -/

namespace Method

/-- The nodes of a method. There is no function around them to go back to. -/
def parts (method : Method) : List (Position × Node) :=
  method.body.map fun node => (.inner, node)

end Method

/-- A body is the sequence of its nodes, wherever it stands. -/
@[simp]
theorem Node.map_bodyParts (position : Position) (body : List Node) :
    (bodyParts position body).map (·.2) = body := by
  match body with
  | [] => rfl
  | [last] => rfl
  | node :: next :: rest => exact congrArg (node :: ·) (map_bodyParts position (next :: rest))

/-- The nodes of a function are the bodies of its clauses. -/
@[simp]
theorem Lambda.map_parts (function : Lambda) :
    function.parts.map (·.2) = function.clauses.flatMap (·.body) := by
  simp [parts, List.map_flatMap]

@[simp]
theorem Method.map_parts (method : Method) : method.parts.map (·.2) = method.body := by
  simp [parts, Function.comp_def]

namespace Node

/-- The nodes in a node that its evaluation does not come to, with their positions. -/
def dormant : Node → List (Position × Node)
  | .lambda function | .macroDefinition _ function => function.parts
  | .classInstantiation constructor args =>
    (.inner, constructor) :: args.map fun node => (.inner, node)
  | .methodResolution object _ args => (.inner, object) :: args.map fun node => (.inner, node)
  | .propertyResolution object _ => [(.inner, object)]
  | .assignment target value => [(.inner, target), (.inner, value)]
  | .typeDefinition _ _ _ methods | .protocolDefinition _ _ methods =>
    methods.flatMap (·.parts)
  | _ => []

/-- All nodes that stand directly in a node, with their positions. -/
def children (position : Position) (node : Node) : List (Position × Node) :=
  node.parts position ++ node.dormant

/-- All nodes that stand directly in a node. -/
def subnodes (node : Node) : List Node :=
  (node.children .inner).map (·.2)

/-- Which nodes are evaluated as parts of a node does not depend on its position. -/
theorem map_parts (position : Position) (node : Node) :
    (node.parts position).map (·.2) = (node.parts .inner).map (·.2) := by
  cases node with
  | conditional => simp [parts, List.map_flatMap]
  | exceptionHandler body handler cleanup =>
    cases handler <;> cases cleanup <;> simp [parts]
  | _ => simp [parts]

theorem mem_subnodes_of_mem_parts {position : Position} {node : Node} {part : Position × Node}
    (member : part ∈ node.parts position) : part.2 ∈ node.subnodes := by
  have among : part.2 ∈ (node.parts position).map (·.2) := List.mem_map_of_mem member
  rw [map_parts] at among
  rw [subnodes, children, List.map_append]
  exact List.mem_append_left _ among

/-! ### Depth -/

/-- `Within chosen inner outer`: the node `inner` is `outer`, or stands inside a chosen part of
it. -/
inductive Within (chosen : Node → List Node) (inner : Node) : Node → Prop
  | self : Within chosen inner inner
  | part {outer middle : Node} (member : middle ∈ chosen outer)
      (deeper : Within chosen inner middle) : Within chosen inner outer

/-- `Stands place inner position outer`: where `outer` has a position, `inner` is `outer` or stands
inside it, in the given place of the loop or function closest to it. -/
inductive Stands (place : Position) (inner : Node) : Position → Node → Prop
  | self : Stands place inner place inner
  | child {position : Position} {outer : Node} {part : Position × Node}
      (member : part ∈ outer.children position) (deeper : Stands place inner part.1 part.2) :
      Stands place inner position outer

variable {chosen : Node → List Node} {p : Node → Prop}

/-- A node with some property inside a node is the node itself or one inside its parts. -/
theorem exists_within_iff {outer : Node} :
    (∃ inner, Within chosen inner outer ∧ p inner) ↔
      p outer ∨ ∃ part ∈ chosen outer, ∃ inner, Within chosen inner part ∧ p inner := by
  constructor
  · rintro ⟨inner, within, holds⟩
    cases within with
    | self => exact .inl holds
    | part member deeper => exact .inr ⟨_, member, inner, deeper, holds⟩
  · rintro (here | ⟨part, member, inner, deeper, holds⟩)
    · exact ⟨outer, .self, here⟩
    · exact ⟨inner, .part member deeper, holds⟩

end Node

end ScriptLisp
