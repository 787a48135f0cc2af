import ScriptLisp.Proofs.Analysis.Acceptance
import ScriptLisp.Proofs.Node.Made

/-!
What analysis is composed of, and what it makes of that. The analysis of a form does a few things to
its session, one after the other: it asks for the target, takes instances of literals, defines
macros, and analyzes forms inside the form. So whatever holds of these steps, and of two steps in
sequence, holds of the analysis of any form that is not expanded.

The constructs are walked once, and two things are followed on the way. The forms inside may be
analyzed in two ways; the two analyses of the form are then composed alike, and can be compared. And
if the nodes of the forms inside are put together as analysis does it, so is the node of the form.

* `Composed`: two steps that are composed alike, and what is said of their results.
* `composed_cond`, `composed_trying`, ...: one rule for each construct.
* `composed_unexpanded`: the analyses of a form that is not expanded.
-/

namespace ScriptLisp.Analysis

open Session Node

/-- Two steps that are composed alike, of the same elementary steps and of two analyses of the same
forms. A result is as said if the `final` tables hold the literals that were taken, the nodes inside
are put together as analysis does it, and what is `known` before the steps is true. -/
inductive Composed (step other : Step) (final : InternTable) :
    {α : Type} → Prop → (α → Prop) → InSession α → InSession α → Prop
  | pure {α : Type} {known : Prop} {result : α → Prop} {value : α} (given : known → result value) :
      Composed step other final known result (Pure.pure value) (Pure.pure value)
  | throw {α : Type} {known : Prop} {result : α → Prop} (halt : Halt FormFault) :
      Composed step other final known result (MonadExcept.throw halt) (MonadExcept.throw halt)
  | bind {α β : Type} {known : Prop} {result : α → Prop} {answer : β → Prop}
      {first otherFirst : InSession α} {second otherSecond : α → InSession β}
      (starts : Composed step other final known result first otherFirst)
      (goesOn : ∀ value, Composed step other final (known ∧ result value) answer (second value)
        (otherSecond value)) :
      Composed step other final known answer (first >>= second) (otherFirst >>= otherSecond)
  | variableOf {known : Prop} (name : String) :
      Composed step other final known anything (variableOf name) (variableOf name)
  | intern {α : Type} {known : Prop} {take : InternTable → Interned α × InternTable}
      {wrap : α → Literal} {asked : α}
      (gives : ∀ table : InternTable, table.Gives wrap asked (take table))
      (repeats : InternTable.Repeats take) :
      Composed step other final known (fun interned => interned.value = asked ∧
        final.Holds interned.index (wrap asked)) (intern take) (intern take)
  | defineMacro {known : Prop} (name : Name) (function : Lambda) :
      Composed step other final known anything (defineMacro name function)
        (defineMacro name function)
  | analysis {known : Prop} (form : Form) :
      Composed step other final known (Made final .inner) (step form) (other form)

variable {step other : Step} {final : InternTable} {known : Prop} {position : Position}

namespace Composed

variable {α β : Type} {result : α → Prop} {answer : β → Prop}

/-- A construct that is rejected fails in both analyses, and says nothing of a result. -/
theorem reject (form : Form) (fault : ShapeFault) :
    Composed step other final known result (Session.reject form fault)
      (Session.reject form fault) :=
  .throw _

/-- Two steps whose results are only made into other ones. -/
theorem returning {first otherFirst : InSession α} {f : α → β}
    (composed : Composed step other final known result first otherFirst)
    (given : known → ∀ value, result value → answer (f value)) :
    Composed step other final known answer (do return f (← first))
      (do return f (← otherFirst)) :=
  composed.bind fun value => .pure fun ⟨learned, made⟩ => given learned value made

end Composed

/-! ### Literals and data -/

/-- A literal takes one instance, and its node is made of that. -/
theorem composed_literalNode {α : Type} {take : InternTable → Interned α × InternTable}
    {wrap : α → Literal} {asked : α} {build : Interned α → Node} (form : Form)
    (gives : ∀ table : InternTable, table.Gives wrap asked (take table))
    (repeats : InternTable.Repeats take)
    (built : ∀ interned, (build interned).instance? = some (interned.index, wrap interned.value))
    (read : form.literal? = some (wrap asked)) :
    Composed step other final known (Made final position) (do return build (← intern take))
      (do return build (← intern take)) := by
  refine (Composed.intern gives repeats).returning fun _ interned taken => ?_
  obtain ⟨rfl, holds⟩ := taken
  exact .ofLiteral (built interned) holds read

theorem composed_nil : Composed step other final known (Made final position) nil nil :=
  composed_literalNode .nil InternTable.gives_nil InternTable.repeats_nil (fun _ => rfl) rfl

theorem composed_boolean (b : Bool) : Composed step other final known (Made final position)
    (do return .boolean (← intern (·.boolean b))) (do return .boolean (← intern (·.boolean b))) :=
  composed_literalNode (.boolean b) (·.gives_boolean b) (InternTable.repeats_boolean b)
    (fun _ => rfl) rfl

theorem composed_integer (i : Int64) : Composed step other final known (Made final position)
    (do return .integer (← intern (·.integer i))) (do return .integer (← intern (·.integer i))) :=
  composed_literalNode (.integer i) (·.gives_integer i) (InternTable.repeats_integer i)
    (fun _ => rfl) rfl

theorem composed_string (s : String) : Composed step other final known (Made final position)
    (do return .string (← intern (·.string s))) (do return .string (← intern (·.string s))) :=
  composed_literalNode (.string s) (·.gives_string s) (InternTable.repeats_string s)
    (fun _ => rfl) rfl

theorem composed_keyword (k : String) : Composed step other final known (Made final position)
    (do return .keyword (← intern (·.keyword (Name.parse k))))
    (do return .keyword (← intern (·.keyword (Name.parse k)))) :=
  composed_literalNode (.keyword k) (·.gives_keyword (Name.parse k))
    (InternTable.repeats_keyword (Name.parse k)) (fun _ => rfl) rfl

theorem composed_symbol (s : String) : Composed step other final known (Made final position)
    (do return .symbol (← intern (·.symbol (Name.parse s))))
    (do return .symbol (← intern (·.symbol (Name.parse s)))) :=
  composed_literalNode (.symbol s) (·.gives_symbol (Name.parse s))
    (InternTable.repeats_symbol (Name.parse s)) (fun _ => rfl) rfl

mutual

/-- Data is made of literals only. The forms inside are not analyzed, so here the two analyses are
one. -/
theorem composed_quoted {known : Prop} (form : Form) :
    Composed step other final known (Made final .inner) (quoted form) (quoted form) := by
  match form with
  | .nil => exact composed_nil
  | .boolean b => exact composed_boolean b
  | .integer i => exact composed_integer i
  | .string s => exact composed_string s
  | .keyword k => exact composed_keyword k
  | .symbol s => exact composed_symbol s
  | .rational _ _ | .decimal _ =>
    exact .pure fun _ => .construct rfl rfl (List.forall_mem_nil _)
  | .list forms | .vector forms | .set forms =>
    refine (composed_quotedAll forms).returning fun _ nodes made => .ofSubnodes rfl rfl rfl ?_
    simpa [subnodes, children, parts, dormant] using made
  | .map entries =>
    exact (composed_quotedEntries entries).returning fun _ _ made => .map made

theorem composed_quotedAll {known : Prop} (forms : List Form) :
    Composed step other final known (fun nodes => ∀ node ∈ nodes, Made final .inner node)
      (quotedAll forms) (quotedAll forms) := by
  match forms with
  | [] => exact .pure fun _ => List.forall_mem_nil _
  | form :: rest =>
    refine (composed_quoted form).bind fun node => ?_
    refine (composed_quotedAll rest).returning fun ⟨_, first⟩ nodes others => ?_
    exact List.forall_mem_cons.mpr ⟨first, others⟩

theorem composed_quotedEntries {known : Prop} (entries : List (Form × Form)) :
    Composed step other final known (fun nodes => ∀ entry ∈ nodes, Made final .inner entry.1 ∧
      Made final .inner entry.2) (quotedEntries entries) (quotedEntries entries) := by
  match entries with
  | [] => exact .pure fun _ => List.forall_mem_nil _
  | (key, item) :: rest =>
    refine (composed_quoted key).bind fun _ => (composed_quoted item).bind fun _ => ?_
    refine (composed_quotedEntries rest).returning fun ⟨⟨_, first⟩, second⟩ nodes others => ?_
    exact List.forall_mem_cons.mpr ⟨⟨first, second⟩, others⟩

end

/-! ### Names -/

/-- Parameters are names. No node is made of them. -/
theorem composed_params (form : Form) (parameters : List Form) :
    Composed step other final known anything (params form parameters) (params form parameters) := by
  fun_induction params form parameters generalizing known with
  | case1 => exact .pure fun _ => trivial
  | case2 | case3 | case5 | case7 => exact .reject form _
  | case4 rest _ => exact (Composed.variableOf rest).returning fun _ _ _ => trivial
  | case6 name remaining _ ih =>
    exact (Composed.variableOf name).bind fun _ => ih.returning fun _ _ _ => trivial

theorem composed_attributes (form : Form) (names : List Form) :
    Composed step other final known anything (attributes form names) (attributes form names) := by
  fun_induction attributes form names generalizing known with
  | case1 => exact .pure fun _ => trivial
  | case2 name rest ih =>
    exact (Composed.variableOf name).bind fun _ => ih.returning fun _ _ _ => trivial
  | case3 => exact .reject form _

/-! ### Sequences and literals -/

/-- Forms are analyzed from the first to the last. -/
theorem composed_inOrder (forms : List Form) :
    Composed step other final known (fun nodes => ∀ node ∈ nodes, Made final .inner node)
      (inOrder step forms) (inOrder other forms) := by
  induction forms generalizing known with
  | nil => exact .pure fun _ => List.forall_mem_nil _
  | cons form rest ih =>
    refine (Composed.analysis form).bind fun node => ih.returning fun ⟨_, first⟩ nodes others => ?_
    exact List.forall_mem_cons.mpr ⟨first, others⟩

/-- Each key is analyzed right before its value. -/
theorem composed_entriesInOrder (entries : List (Form × Form)) :
    Composed step other final known (fun nodes => ∀ entry ∈ nodes, Made final .inner entry.1 ∧
      Made final .inner entry.2) (entriesInOrder step entries) (entriesInOrder other entries) := by
  induction entries generalizing known with
  | nil => exact .pure fun _ => List.forall_mem_nil _
  | cons entry rest ih =>
    refine (Composed.analysis entry.1).bind fun _ => (Composed.analysis entry.2).bind fun _ => ?_
    refine ih.returning fun ⟨⟨_, first⟩, second⟩ nodes others => ?_
    exact List.forall_mem_cons.mpr ⟨⟨first, second⟩, others⟩

/-- A form that is no list is a literal, a variable, or a collection of forms. -/
theorem composed_literal (form : Form) :
    Composed step other final known (Made final .inner)
      (literal step form) (literal other form) := by
  cases form with
  | nil => exact composed_nil
  | boolean b => exact composed_boolean b
  | integer i => exact composed_integer i
  | string s => exact composed_string s
  | keyword k => exact composed_keyword k
  | symbol s =>
    exact (Composed.variableOf s).returning fun _ _ _ => .construct rfl rfl (List.forall_mem_nil _)
  | rational n d => exact .pure fun _ => .construct rfl rfl (List.forall_mem_nil _)
  | decimal d => exact .pure fun _ => .construct rfl rfl (List.forall_mem_nil _)
  | list elements | vector elements | set elements =>
    refine (composed_inOrder elements).returning fun _ nodes made => .ofSubnodes rfl rfl rfl ?_
    simpa [subnodes, children, parts, dormant] using made
  | map entries =>
    exact (composed_entriesInOrder entries).returning fun _ _ made => .map made

/-! ### Functions -/

/-- The forms of a body are analyzed as others are, and the last one is marked afterwards. -/
theorem composed_body (forms : List Form) :
    Composed step other final known
      (fun body => ∀ part ∈ bodyParts .tail body, Made final part.1 part.2)
      (body step forms) (body other forms) :=
  (composed_inOrder forms).returning fun _ _ made => .lastInTailPosition made

theorem composed_clause (form : Form) (parameters forms : List Form) :
    Composed step other final known (fun clause => ∀ part ∈ bodyParts .tail clause.body,
      Made final part.1 part.2)
      (clause step form parameters forms) (clause other form parameters forms) :=
  (composed_params form parameters).bind fun _ =>
    (composed_body forms).returning fun _ _ made => made

/-- Each clause stands in a list of its own. -/
theorem composed_clauses (form : Form) (forms : List Form) :
    Composed step other final known
      (fun clauses => ∀ clause ∈ clauses, ∀ part ∈ bodyParts .tail clause.body,
        Made final part.1 part.2)
      (clauses step form forms) (clauses other form forms) := by
  induction forms generalizing known with
  | nil => exact .pure fun _ => List.forall_mem_nil _
  | cons first rest ih =>
    rw [clauses.eq_def, clauses.eq_def]
    split
    · exact .pure fun _ => List.forall_mem_nil _
    · rename_i same
      cases same
      refine (composed_clause form _ _).bind fun clause => ?_
      refine ih.returning fun learned clauses others => ?_
      exact List.forall_mem_cons.mpr ⟨learned.2, others⟩
    · exact .reject form _

/-- A function has one clause, or several whose parameters go together. -/
theorem composed_function (form : Form) (definition : List Form) :
    Composed step other final known
      (fun function => ∀ part ∈ function.parts, Made final part.1 part.2)
      (function step form definition) (function other form definition) := by
  unfold function
  split
  · refine (composed_clause form _ _).returning fun _ clause made => ?_
    simpa [Lambda.parts, Lambda.clauses] using made
  · refine (composed_clauses form _).bind fun clauses => ?_
    split
    · exact .reject form _
    · refine .pure fun learned => ?_
      rw [Lambda.parts, Lambda.clauses, List.forall_mem_flatMap]
      exact learned.2
  · exact .reject form _

/-! ### Definitions and conditionals -/

/-- A definition without a value is one of `nil`. -/
theorem composed_definition (form : Form) :
    Composed step other final known (Made final .inner)
      (definition step form) (definition other form) := by
  have bound : ∀ {name value}, Made final .inner value →
      Made final .inner (.definition name value) := by
    intro name value made
    refine .ofSubnodes rfl rfl rfl ?_
    simpa [subnodes, children, parts, dormant] using made
  unfold definition
  split
  · refine (Composed.variableOf _).bind fun _ => ?_
    exact (Composed.analysis _).returning fun _ _ made => bound made
  · exact (Composed.variableOf _).bind fun _ => composed_nil.returning fun _ _ made => bound made
  · exact .reject form _
  · exact .reject form _

/-- The branches that were found so far are made of made nodes. -/
def MadeBranches (final : InternTable) (found : Branches) : Prop :=
  (∀ branch ∈ found.tested, Made final .inner branch.1 ∧ Made final .tail branch.2) ∧
    ∀ node ∈ found.otherwise, Made final .tail node

/-- Branches are found pair by pair: a test and its consequent, or an `else` in place of a test,
where the last one counts. -/
theorem composed_branches (operands : List Form) {found : Branches}
    (start : known → MadeBranches final found) :
    Composed step other final known (MadeBranches final)
      (branches step operands found) (branches other operands found) := by
  fun_induction branches step operands found generalizing known with
  | case1 test consequent rest found isElse ih =>
    rw [branches.eq_def other]
    dsimp only
    rw [if_pos isElse]
    refine (Composed.analysis consequent).bind fun node => ih node ?_
    rintro ⟨learned, made⟩
    refine ⟨(start learned).1, fun _ same => ?_⟩
    cases same
    exact made.marked
  | case2 test consequent rest found noElse ih =>
    rw [branches.eq_def other]
    dsimp only
    rw [if_neg noElse]
    refine (Composed.analysis test).bind fun tested => ?_
    refine (Composed.analysis consequent).bind fun node => ?_
    refine ih tested node ?_
    rintro ⟨⟨learned, madeTest⟩, made⟩
    refine ⟨?_, (start learned).2⟩
    exact List.forall_mem_append.mpr
      ⟨(start learned).1, List.forall_mem_singleton.mpr ⟨madeTest, made.marked⟩⟩
  | case3 operands found short =>
    rw [branches]
    · exact .pure start
    · exact short

/-- Without an `else` the last branch is `nil`. -/
theorem composed_cond (form : Form) :
    Composed step other final known (Made final .inner) (cond step form) (cond other form) := by
  unfold cond
  split
  · have nothing : MadeBranches final {} := ⟨List.forall_mem_nil _, nofun⟩
    refine (composed_branches _ fun _ => nothing).bind fun found => ?_
    split
    · rename_i otherwise given
      exact .pure fun learned => .conditional learned.2.1 (learned.2.2 otherwise given)
    · exact composed_nil.returning fun learned _ last => .conditional learned.2.1 last
  · exact .reject form _

/-- Both branches are in tail position, and the second one may be left out. -/
theorem composed_conditional (form : Form) :
    Composed step other final known (Made final .inner)
      (conditional step form) (conditional other form) := by
  unfold conditional
  split
  · refine (Composed.analysis _).bind fun _ => (Composed.analysis _).bind fun _ => ?_
    refine (Composed.analysis _).returning fun ⟨⟨_, tested⟩, chosen⟩ _ last => ?_
    exact .conditional (List.forall_mem_singleton.mpr ⟨tested, chosen.marked⟩) last.marked
  · refine (Composed.analysis _).bind fun _ => (Composed.analysis _).bind fun _ => ?_
    exact composed_nil.returning fun ⟨⟨_, tested⟩, chosen⟩ _ last =>
      .conditional (List.forall_mem_singleton.mpr ⟨tested, chosen.marked⟩) last
  · exact .reject form _

/-! ### Loops and exceptions -/

/-- Names are bound in turn, each one before its initial value is analyzed. -/
theorem composed_bindings (form : Form) (names : List Form) :
    Composed step other final known
      (fun bindings => ∀ binding ∈ bindings, Made final .inner binding.2)
      (bindings step form names) (bindings other form names) := by
  fun_induction bindings step form names generalizing known with
  | case1 name init rest ih =>
    refine (Composed.variableOf name).bind fun _ => (Composed.analysis init).bind fun _ => ?_
    refine ih.returning fun learned bindings others => ?_
    exact List.forall_mem_cons.mpr ⟨learned.2, others⟩
  | case2 => exact .pure fun _ => List.forall_mem_nil _
  | case3 names noBinding nonempty =>
    rw [bindings]
    · exact .reject form _
    · exact noBinding
    · exact nonempty

/-- The nodes of a loop are its initial values and its body. -/
theorem composed_loop (form : Form) :
    Composed step other final known (Made final .inner) (loop step form) (loop other form) := by
  unfold loop
  split
  · split
    · refine (composed_bindings form _).bind fun bindings => ?_
      refine (composed_inOrder _).returning fun ⟨_, starts⟩ body made => ?_
      refine .ofSubnodes rfl rfl rfl ?_
      simp only [subnodes, children, parts, dormant, List.append_nil, List.map_append, List.map_map,
        map_bodyParts]
      exact List.forall_mem_append.mpr ⟨List.forall_mem_map.mpr starts, made⟩
    · exact .reject form _
  · exact .reject form _

theorem composed_throwing (form : Form) :
    Composed step other final known (Made final .inner)
      (throwing step form) (throwing other form) := by
  unfold throwing
  split
  · refine (Composed.analysis _).returning fun _ node made => .ofSubnodes rfl rfl rfl ?_
    simpa [subnodes, children, parts, dormant] using made
  · exact .reject form _

/-- The clauses of a handler that were found so far are made of made nodes. -/
def MadeHandlers (final : InternTable) (found : Handlers) : Prop :=
  (∀ handler ∈ found.handler, ∀ node ∈ handler.2, Made final .inner node) ∧
    ∀ cleanup ∈ found.cleanup, ∀ node ∈ cleanup, Made final .inner node

/-- A second clause of a kind is rejected, so what was found is never replaced. -/
theorem composed_handlers (form : Form) (clauses : List Form) {found : Handlers}
    (start : known → MadeHandlers final found) :
    Composed step other final known (MadeHandlers final)
      (handlers step form clauses found) (handlers other form clauses found) := by
  induction clauses generalizing known found with
  | nil => exact .pure start
  | cons first rest ih =>
    rw [handlers.eq_def, handlers.eq_def]
    split
    · exact .pure start
    · rename_i same
      cases same
      split
      · refine (Composed.variableOf _).bind fun name => ?_
        refine (composed_inOrder _).bind fun body => ih ?_
        rintro ⟨⟨learned, _⟩, made⟩
        refine ⟨fun _ same => ?_, (start learned).2⟩
        cases same
        exact made
      · exact .reject form _
    · rename_i same
      cases same
      split
      · refine (composed_inOrder _).bind fun body => ih ?_
        rintro ⟨learned, made⟩
        refine ⟨(start learned).1, fun _ same => ?_⟩
        cases same
        exact made
      · exact .reject form _
    · exact .reject form _

/-- The clauses stand behind the body, and there is at least one. -/
theorem composed_trying (form : Form) :
    Composed step other final known (Made final .inner) (trying step form) (trying other form) := by
  have nothing : MadeHandlers final {} := ⟨nofun, nofun⟩
  refine (composed_inOrder _).bind fun body => ?_
  refine (composed_handlers form _ fun _ => nothing).bind fun found => ?_
  split
  · exact .reject form _
  · refine .pure ?_
    rintro ⟨⟨_, made⟩, handled, cleaned⟩
    refine .ofSubnodes rfl rfl rfl ?_
    simp only [subnodes, children, parts, dormant, List.append_nil, List.map_append, map_bodyParts,
      List.forall_mem_append]
    refine ⟨⟨made, ?_⟩, ?_⟩
    · cases given : found.handler with
      | none => exact List.forall_mem_nil _
      | some handler => simpa using handled handler given
    · cases given : found.cleanup with
      | none => exact List.forall_mem_nil _
      | some cleanup => simpa using cleaned cleanup given

/-! ### Objects and types -/

/-- A constructor is any form, as a function is. -/
theorem composed_instantiation (form : Form) :
    Composed step other final known (Made final .inner)
      (instantiation step form) (instantiation other form) := by
  unfold instantiation
  split
  · refine (Composed.analysis _).bind fun _ => ?_
    refine (composed_inOrder _).returning fun ⟨_, first⟩ args made => ?_
    refine .ofSubnodes rfl rfl rfl ?_
    simpa [subnodes, children, parts, dormant] using ⟨first, made⟩
  · exact .reject form _

/-- The name of a method is a variable, and the object stands before it. -/
theorem composed_methodCall (object : Form) (name : String) (args : List Form) :
    Composed step other final known (Made final .inner)
      (methodCall step object name args) (methodCall other object name args) := by
  refine (Composed.analysis object).bind fun _ => (Composed.variableOf name).bind fun _ => ?_
  refine (composed_inOrder args).returning fun ⟨⟨_, first⟩, _⟩ args made => ?_
  refine .ofSubnodes rfl rfl rfl ?_
  simpa [subnodes, children, parts, dormant] using ⟨first, made⟩

/-- The name of a method stands behind the object, or with the arguments in a list. -/
theorem composed_method (form : Form) :
    Composed step other final known (Made final .inner) (method step form) (method other form) := by
  unfold method
  split
  · exact composed_methodCall _ _ _
  · exact composed_methodCall _ _ _
  · exact .reject form _
  · exact .reject form _
  · exact .reject form _

theorem composed_property (form : Form) :
    Composed step other final known (Made final .inner)
      (property step form) (property other form) := by
  unfold property
  split
  · refine (Composed.analysis _).bind fun _ => ?_
    refine (Composed.variableOf _).returning fun ⟨_, made⟩ _ _ => ?_
    refine .ofSubnodes rfl rfl rfl ?_
    simpa [subnodes, children, parts, dormant] using made
  · exact .reject form _

/-- What is assigned to is analyzed like any other form. -/
theorem composed_assigned (target value : Form) :
    Composed step other final known (Made final .inner)
      (assigned step target value) (assigned other target value) := by
  refine (Composed.analysis target).bind fun _ => ?_
  refine (Composed.analysis value).returning fun ⟨_, first⟩ _ second => ?_
  refine .ofSubnodes rfl rfl rfl ?_
  simpa [subnodes, children, parts, dormant] using ⟨first, second⟩

theorem composed_assignment (form : Form) :
    Composed step other final known (Made final .inner)
      (assignment step form) (assignment other form) := by
  unfold assignment
  split
  · exact composed_assigned _ _
  · exact composed_assigned _ _
  · exact .reject form _

/-- The methods that were found so far are made of made nodes. -/
def MadeMembers (final : InternTable) (found : Members) : Prop :=
  ∀ method ∈ found.methods, ∀ part ∈ bodyParts .tail method.body, Made final part.1 part.2

/-- Protocols are only named; methods have parameters and a body like clauses of functions. -/
theorem composed_members (form : Form) (forms : List Form) {found : Members}
    (start : known → MadeMembers final found) :
    Composed step other final known (MadeMembers final)
      (members step form forms found) (members other form forms found) := by
  induction forms generalizing known found with
  | nil => exact .pure start
  | cons first rest ih =>
    rw [members.eq_def, members.eq_def]
    split
    · exact .pure start
    · rename_i same
      cases same
      exact (Composed.variableOf _).bind fun _ => ih fun learned => start learned.1
    · rename_i same
      cases same
      refine (Composed.variableOf _).bind fun name => ?_
      refine (composed_params form _).bind fun parameters => ?_
      refine (composed_body _).bind fun body => ih ?_
      rintro ⟨⟨⟨learned, _⟩, _⟩, made⟩
      exact List.forall_mem_append.mpr ⟨start learned, List.forall_mem_singleton.mpr made⟩
    all_goals exact .reject form _

/-- The type is bound to its name, so its node stands in a definition. -/
theorem composed_typeDefinition (form : Form) :
    Composed step other final known (Made final .inner)
      (typeDefinition step form) (typeDefinition other form) := by
  unfold typeDefinition
  split
  · have nothing : MadeMembers final {} := List.forall_mem_nil _
    refine (Composed.variableOf _).bind fun name => ?_
    refine (composed_attributes form _).bind fun names => ?_
    refine (composed_members form _ fun _ => nothing).returning fun _ found made => ?_
    refine .ofSubnodes rfl rfl rfl ?_
    have created : Made final .inner (.typeDefinition name names found.protocols found.methods) :=
      .construct rfl rfl (List.forall_mem_flatMap.mpr made)
    simpa [subnodes, children, parts, dormant] using created
  · exact .reject form _

theorem composed_protocolDefinition (form : Form) :
    Composed step other final known (Made final .inner)
      (protocolDefinition step form) (protocolDefinition other form) := by
  unfold protocolDefinition
  split
  · have nothing : MadeMembers final {} := List.forall_mem_nil _
    refine (Composed.variableOf _).bind fun name => ?_
    refine (composed_members form _ fun _ => nothing).returning fun _ found made => ?_
    exact .construct rfl rfl (List.forall_mem_flatMap.mpr made)
  · exact .reject form _

/-! ### Macros -/

/-- The macro is defined once its function is understood. -/
theorem composed_macroDefinition (form : Form) :
    Composed step other final known (Made final .inner)
      (macroDefinition step form) (macroDefinition other form) := by
  unfold macroDefinition
  split
  · refine (composed_function form _).bind fun function => ?_
    refine (Composed.defineMacro _ function).bind fun _ => .pure ?_
    rintro ⟨⟨_, made⟩, _⟩
    exact .construct rfl rfl made
  · exact .reject form _

/-! ### Forms -/

/-- A quotation has one operand, which is data. -/
theorem composed_quotation (form : Form) :
    Composed step other final known (Made final .inner) (quotation form) (quotation form) := by
  unfold quotation
  split
  · exact composed_quoted _
  · exact .reject form _

/-- Every special form, by its head. -/
theorem composed_special (form : Form) (head : SpecialForm) :
    Composed step other final known (Made final .inner)
      (special step form head) (special other form head) := by
  cases head with
  | definition => exact composed_definition form
  | quotation => exact composed_quotation form
  | cond => exact composed_cond form
  | conditional => exact composed_conditional form
  | function =>
    exact (composed_function form _).returning fun _ _ made => .construct rfl rfl made
  | block | recur =>
    refine (composed_inOrder _).returning fun _ nodes made => .ofSubnodes rfl rfl rfl ?_
    simpa [subnodes, children, parts, dormant] using made
  | loop => exact composed_loop form
  | throwing => exact composed_throwing form
  | trying => exact composed_trying form
  | instantiation => exact composed_instantiation form
  | method => exact composed_method form
  | property => exact composed_property form
  | assignment => exact composed_assignment form
  | macroDefinition => exact composed_macroDefinition form
  | typeDefinition => exact composed_typeDefinition form
  | protocolDefinition => exact composed_protocolDefinition form

/-- An operator is checked for the number of its operands before any of them is analyzed. -/
theorem composed_operation (form : Form) (name : String) :
    Composed step other final known (Made final .inner)
      (operation step form name) (operation other form name) := by
  unfold operation
  split
  · refine (Composed.analysis _).bind fun _ => ?_
    refine (Composed.analysis _).returning fun ⟨_, first⟩ _ second => ?_
    refine .ofSubnodes rfl rfl rfl ?_
    simpa [subnodes, children, parts, dormant] using ⟨first, second⟩
  · exact .throw _
  · refine (Composed.analysis _).returning fun _ _ made => .ofSubnodes rfl rfl rfl ?_
    simpa [subnodes, children, parts, dormant] using made
  · exact .throw _
  · refine (composed_inOrder _).returning fun _ nodes made => .ofSubnodes rfl rfl rfl ?_
    simpa [subnodes, children, parts, dormant] using made
  · exact .throw _

/-- The callee of a call is analyzed before the arguments. -/
theorem composed_application (head : Form) (operands : List Form) :
    Composed step other final known (Made final .inner)
      (application step head operands) (application other head operands) := by
  refine (Composed.analysis head).bind fun _ => ?_
  refine (composed_inOrder operands).returning fun ⟨_, first⟩ args made => ?_
  refine .ofSubnodes rfl rfl rfl ?_
  simpa [subnodes, children, parts, dormant] using ⟨first, made⟩

/-- A list is a special form, an operation or a call, by its head. -/
theorem composed_listForm (elements : List Form) :
    Composed step other final known (Made final .inner)
      (listForm step elements) (listForm other elements) := by
  unfold listForm
  split
  · exact .pure fun _ => .construct rfl rfl (List.forall_mem_nil _)
  · split
    · exact composed_special _ _
    · exact composed_operation _ _
    · exact composed_application _ _
  · exact composed_application _ _

/-- A form that is not expanded is composed of the analyses of the forms inside. -/
theorem composed_unexpanded (form : Form) :
    Composed step other final known (Made final .inner)
      (unexpanded step form) (unexpanded other form) := by
  unfold unexpanded
  split
  · exact composed_listForm _
  · exact composed_literal _

end ScriptLisp.Analysis
