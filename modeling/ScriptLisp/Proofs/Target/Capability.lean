import ScriptLisp.Proofs.Node.Children
import ScriptLisp.Proofs.Target.JavaScriptTotal
import ScriptLisp.Target.Generate

/-!
What a target cannot express is exactly what it declares. A node shows the kinds of all constructs
in it; a macro leaves no text, so what stands in it is not shown. Both emitters check every
construct that they come to. Generation fails exactly when a kind is shown that the target declares
to have no text for, and the failure names such a kind.

* `Node.Shows`: a kind occurs in a node, outside of macros.
* `Target.Reports`: a result of generation that fails exactly for declared kinds in some nodes.
* `Ruby.emit_reports`: what the emitter of Ruby reports, by recursion on nodes. That of JavaScript
  never fails (`JavaScript.emit_eq`).
* `Target.generate_exact`: the declared kinds are exact, in every target.
-/

namespace ScriptLisp

/-! ### Shown kinds -/

namespace Node

/-- The methods of a type or protocol. -/
def methods : Node → List Method
  | .typeDefinition _ _ _ methods | .protocolDefinition _ _ methods => methods
  | _ => []

/-- The kinds of the construct that a node is: its own, and that of its methods. -/
def kinds (node : Node) : List NodeKind :=
  node.kind :: node.methods.map fun _ => .typeMethod

/-- The nodes that stand directly in a node, unless the node is a macro. -/
def exposed : Node → List Node
  | .macroDefinition _ _ => []
  | node => node.subnodes

/-- A kind occurs in a node, at any depth but not below a macro. -/
def Shows (kind : NodeKind) (node : Node) : Prop :=
  ∃ inner, Within exposed inner node ∧ kind ∈ inner.kinds

theorem shows_iff {kind : NodeKind} {node : Node} :
    node.Shows kind ↔ kind ∈ node.kinds ∨ ∃ part ∈ node.exposed, part.Shows kind :=
  exists_within_iff

open Target in
/-- Only constructs without a text have methods. -/
theorem kinds_of_supported {node : Node} (supported : node.kind ∉ ruby.unsupported) :
    node.kinds = [node.kind] := by
  cases node with
  | typeDefinition _ _ _ _ => exact absurd (by simp [kind, unsupported]) supported
  | protocolDefinition _ _ _ => exact absurd (by simp [kind, unsupported]) supported
  | _ => rfl

end Node

/-! ### Reports -/

namespace Target

/-- A result of generation for some nodes: a text only if the target has one for all kinds they
show, and otherwise the failure for a kind that they show and that has none. -/
def Reports {α : Type} (target : Target) (nodes : List Node) : Except Failure α → Prop
  | .ok _ => ∀ node ∈ nodes, ∀ kind, node.Shows kind → kind ∉ target.unsupported
  | .error failure => ∃ kind ∈ target.unsupported, (∃ node ∈ nodes, node.Shows kind) ∧
      failure = .unsupported kind target

namespace Reports

variable {α β : Type} {target : Target} {nodes others : List Node} {node : Node}

theorem pure (a : α) : Reports target [] (Except.ok a) :=
  List.forall_mem_nil _

theorem bind {x : Except Failure α} {f : α → Except Failure β} (first : Reports target nodes x)
    (next : ∀ a, Reports target others (f a)) : Reports target (nodes ++ others) (x >>= f) := by
  cases x with
  | error failure =>
    obtain ⟨kind, listed, ⟨node, member, shown⟩, named⟩ := first
    exact ⟨kind, listed, ⟨node, List.mem_append_left _ member, shown⟩, named⟩
  | ok a =>
    have next := next a
    change Reports target (nodes ++ others) (f a)
    cases result : f a with
    | error failure =>
      rw [result] at next
      obtain ⟨kind, listed, ⟨node, member, shown⟩, named⟩ := next
      exact ⟨kind, listed, ⟨node, List.mem_append_right _ member, shown⟩, named⟩
    | ok b =>
      rw [result] at next
      exact List.forall_mem_append.mpr ⟨first, next⟩

/-- A report does not depend on the order of the nodes. -/
theorem reordered {x : Except Failure α} (reports : Reports target nodes x)
    (same : ∀ node, node ∈ nodes ↔ node ∈ others) : Reports target others x := by
  cases x with
  | error failure =>
    obtain ⟨kind, listed, ⟨node, member, shown⟩, named⟩ := reports
    exact ⟨kind, listed, ⟨node, (same node).mp member, shown⟩, named⟩
  | ok a => exact fun node member => reports node ((same node).mpr member)

/-- A text that is made of another. -/
theorem returning {x : Except Failure α} (f : α → β) (reports : Reports target nodes x) :
    Reports target nodes (x >>= fun a => Except.ok (f a)) := by
  have bound := reports.bind fun a => pure (f a)
  rwa [List.append_nil] at bound

theorem map {x : Except Failure α} (f : α → β) (reports : Reports target nodes x) :
    Reports target nodes (x.map f) := by
  cases x with
  | error failure => exact reports
  | ok a => exact reports

/-- A step on every member of a list reports what it reports on each. -/
theorem mapM {as : List α} {f : α → Except Failure β} (parts : α → List Node)
    (each : ∀ a ∈ as, Reports target (parts a) (f a)) :
    Reports target (as.flatMap parts) (as.mapM f) := by
  induction as with
  | nil => exact pure []
  | cons a as ih =>
    rw [List.mapM_cons, List.flatMap_cons]
    obtain ⟨first, rest⟩ := List.forall_mem_cons.mp each
    exact first.bind fun b => (ih rest).returning (b :: ·)

/-- The check of a construct fails for the declared kinds, and says nothing about the others. -/
theorem checked {x : Except Failure α}
    (reports : node.kind ∉ target.unsupported → Reports target [node] x) :
    Reports target [node] (do target.ensureSupported node.kind; x) := by
  by_cases listed : node.kind ∈ target.unsupported
  · have refused : target.ensureSupported node.kind = .error (.unsupported node.kind target) :=
      if_neg (by simpa [supports] using listed)
    rw [refused]
    exact ⟨node.kind, listed, ⟨node, List.mem_singleton_self _,
      Node.shows_iff.mpr (.inl List.mem_cons_self)⟩, rfl⟩
  · rw [ensureSupported_of_supports (by simpa [supports] using listed)]
    exact reports listed

end Reports

end Target

/-! ### Emitters -/

namespace Ruby

open Target

/-- A construct that has a text, made of the texts of its parts in any order. -/
theorem construct {α : Type} {nodes : List Node} {node : Node} {x : Except Failure α}
    (reports : Reports ruby nodes x) (supported : node.kind ∉ ruby.unsupported)
    (same : ∀ part, part ∈ nodes ↔ part ∈ node.exposed) : Reports ruby [node] x := by
  cases x with
  | error failure =>
    obtain ⟨kind, listed, ⟨part, member, shown⟩, named⟩ := reports
    exact ⟨kind, listed, ⟨node, List.mem_singleton_self _,
      Node.shows_iff.mpr (.inr ⟨part, (same part).mp member, shown⟩)⟩, named⟩
  | ok a =>
    refine List.forall_mem_singleton.mpr fun kind shown => ?_
    rcases Node.shows_iff.mp shown with here | ⟨part, member, below⟩
    · rw [Node.kinds_of_supported supported] at here
      rwa [List.mem_singleton.mp here]
    · exact reports part ((same part).mpr member) kind below

theorem emitClauses_eq_map (clauses : List Clause) :
    emitClauses clauses =
      clauses.map fun clause => (clause.params, (emitAll clause.body).map bodyText) := by
  induction clauses with
  | nil => rfl
  | cons clause clauses ih =>
    obtain ⟨params, body⟩ := clause
    rw [emitClauses, ih]
    rfl

/-- Whether a call is inlined or not: only a plain name is inlined, and that has a text. -/
theorem call_reports {invocable : Node} (reports : Reports ruby [invocable] (emit invocable))
    (args : List String) :
    Reports ruby [invocable] (match inlined? invocable args with
      | some text => Pure.pure text
      | none => do return callText (← emit invocable) args) := by
  split
  · next text inlined =>
    unfold inlined? at inlined
    split at inlined
    · exact construct (.pure text) (by simp [Node.kind, unsupported]) fun part => Iff.rfl
    · cases inlined
  · exact reports.returning _

/-- Every operator has a token or a method, so that what is written for the lack of both is not
reached. -/
theorem binary_reports (operator : BinaryOperator) (left right : String) (failure : Failure) :
    Reports ruby [] (match binaryText? operator left right with
      | some text => Pure.pure text
      | none => throw failure) := by
  cases operator <;> exact .pure _

-- The recursion is that of the emitters: on the node, and for lists on their members.
mutual

/-- The text of a node, or the failure for a construct in it that has none. -/
theorem emit_reports (node : Node) : Reports ruby [node] (emit node) := by
  rw [emit.eq_def]
  refine .checked fun supported => ?_
  match node with
  | .nil _ | .boolean _ | .integer _ | .rational _ _ | .decimal _ | .string _ | .keyword _
  | .symbol _ | .reference _ | .macroDefinition _ _ =>
    exact construct (.pure _) supported fun part => Iff.rfl
  | .loop _ _ | .recursionPoint _ | .exceptionHandler _ _ _ | .typeDefinition _ _ _ _
  | .protocolDefinition _ _ _ => exact absurd (by simp [Node.kind, unsupported]) supported
  | .vector nodes | .list nodes | .set nodes | .block nodes | .arithmetic _ nodes =>
    exact construct ((emitAll_reports nodes).returning _) supported
      (by simp [Node.exposed, Node.subnodes, Node.children, Node.parts, Node.dormant])
  | .definition _ inner | .exception inner | .propertyResolution inner _ | .unary _ inner =>
    exact construct ((emit_reports inner).returning _) supported
      (by simp [Node.exposed, Node.subnodes, Node.children, Node.parts, Node.dormant])
  | .assignment left right =>
    refine construct ((emit_reports left).bind fun _ => (emit_reports right).returning _)
      supported ?_
    simp [Node.exposed, Node.subnodes, Node.children, Node.parts, Node.dormant]
  | .binary operator left right =>
    refine construct ((emit_reports left).bind fun _ => (emit_reports right).bind fun _ =>
      binary_reports operator _ _ _) supported ?_
    simp [Node.exposed, Node.subnodes, Node.children, Node.parts, Node.dormant]
  | .classInstantiation object args | .methodResolution object _ args =>
    refine construct ((emit_reports object).bind fun _ => (emitAll_reports args).returning _)
      supported ?_
    simp [Node.exposed, Node.subnodes, Node.children, Node.parts, Node.dormant]
  | .map entries =>
    refine construct ((emitEntries_reports entries).returning _) supported ?_
    simp [Node.exposed, Node.subnodes, Node.children, Node.parts, Node.dormant,
      List.map_flatMap]
  | .conditional branches otherwise =>
    refine construct ((emit_reports otherwise).bind fun _ =>
      (emitBranches_reports branches).returning _) supported ?_
    simp [Node.exposed, Node.subnodes, Node.children, Node.parts, Node.dormant,
      List.map_flatMap, or_comm]
  | .lambda function =>
    refine construct (emitLambda_reports function) supported ?_
    simp [Node.exposed, Node.subnodes, Node.children, Node.parts, Node.dormant]
  | .application invocable args tail =>
    refine construct ((emitAll_reports args).bind (call_reports (emit_reports invocable)))
      supported ?_
    simp [Node.exposed, Node.subnodes, Node.children, Node.parts, Node.dormant, or_comm]

theorem emitAll_reports (nodes : List Node) : Reports ruby nodes (emitAll nodes) := by
  match nodes with
  | [] => exact .pure _
  | node :: rest =>
    rw [emitAll]
    exact (emit_reports node).bind fun text => (emitAll_reports rest).returning (text :: ·)

theorem emitEntries_reports (entries : List (Node × Node)) :
    Reports ruby (entries.flatMap fun entry => [entry.1, entry.2]) (emitEntries entries) := by
  match entries with
  | [] => exact .pure _
  | (key, value) :: rest =>
    rw [emitEntries]
    exact (emit_reports key).bind fun _ => (emit_reports value).bind fun _ =>
      (emitEntries_reports rest).returning _

theorem emitBranches_reports (branches : List (Node × Node)) :
    Reports ruby (branches.flatMap fun branch => [branch.1, branch.2]) (emitBranches branches) := by
  match branches with
  | [] => exact .pure _
  | (test, consequent) :: rest =>
    rw [emitBranches]
    exact (emit_reports test).bind fun _ => (emit_reports consequent).bind fun _ =>
      (emitBranches_reports rest).returning _

/-- The text of a function, or the failure for a construct in it that has none. -/
theorem emitLambda_reports (function : Lambda) :
    Reports ruby (function.clauses.flatMap (·.body)) (emitLambda function) := by
  match function with
  | .single (.mk params body) =>
    rw [emitLambda]
    refine ((emitAll_reports body).returning _).reordered ?_
    simp [Lambda.clauses, Clause.body]
  | .multi clauses =>
    rw [emitLambda, emitClauses_eq_map, inTrialOrder, fixedFirst_map, List.mapM_map]
    refine ((Reports.mapM (·.body) fun clause member => ?_).returning dispatchText).reordered ?_
    · have body := emitClauses_reports clauses clause (mem_fixedFirst.mp member)
      exact (body.map bodyText).map (clause.params, ·)
    · simp [mem_fixedFirst, Lambda.clauses]

theorem emitClauses_reports (clauses : List Clause) :
    ∀ clause ∈ clauses, Reports ruby clause.body (emitAll clause.body) := by
  match clauses with
  | [] => exact List.forall_mem_nil _
  | .mk _ body :: rest =>
    exact List.forall_mem_cons.mpr ⟨emitAll_reports body, emitClauses_reports rest⟩

end

end Ruby

/-! ### Targets -/

namespace Target

/-- The text of a node in a target, or the failure for a construct in it that has none there. -/
theorem generate_reports (target : Target) (node : Node) :
    target.Reports [node] (target.generate node) := by
  cases target with
  | javascript =>
    rw [generate, JavaScript.emit_eq]
    exact fun _ _ _ _ => List.not_mem_nil
  | ruby => exact Ruby.emit_reports node

/-- Generation fails exactly for nodes that show a kind without a text in the target, and the
failure names such a kind and the target. JavaScript has a text for every node. -/
theorem generate_exact (node : Node) :
    (∀ target : Target,
      ((∃ failure, target.generate node = .error failure) ↔
        ∃ kind ∈ target.unsupported, node.Shows kind) ∧
      ∀ failure, target.generate node = .error failure →
        ∃ kind ∈ target.unsupported, node.Shows kind ∧ failure = .unsupported kind target) ∧
    ∃ text, javascript.generate node = .ok text := by
  refine ⟨fun target => ?_, _, JavaScript.emit_eq .topLevel node⟩
  have reports := target.generate_reports node
  cases result : target.generate node with
  | ok text =>
    rw [result] at reports
    refine ⟨⟨nofun, ?_⟩, nofun⟩
    rintro ⟨kind, listed, shown⟩
    exact absurd listed (reports node (List.mem_singleton_self _) kind shown)
  | error failure =>
    rw [result] at reports
    obtain ⟨kind, listed, ⟨_, member, shown⟩, named⟩ := reports
    cases List.mem_singleton.mp member
    refine ⟨⟨fun _ => ⟨kind, listed, shown⟩, fun _ => ⟨failure, rfl⟩⟩, ?_⟩
    rintro _ ⟨⟩
    exact ⟨kind, listed, shown, named⟩

/-- A macro whose function loops, beside a function that hands a loop to another one. -/
def loopInArgument : Node :=
  .block [.macroDefinition ⟨none, "m"⟩ (.single (.mk ⟨[], none⟩ [.recursionPoint []])),
    .lambda (.single (.mk ⟨[], none⟩
      [.application (.reference ⟨none, "f"⟩) [.loop [] [.recursionPoint []]] true]))]

theorem generate_exact_loopInArgument :
    ruby.generate loopInArgument = .error (.unsupported .loop ruby) ∧
      ∃ kind ∈ ruby.unsupported, loopInArgument.Shows kind ∧
        Failure.unsupported .loop ruby = .unsupported kind ruby := by
  have fails : ruby.generate loopInArgument = .error (.unsupported .loop ruby) := by rfl
  exact ⟨fails, ((generate_exact loopInArgument).1 ruby).2 _ fails⟩

end Target

end ScriptLisp
