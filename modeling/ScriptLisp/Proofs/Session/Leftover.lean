import ScriptLisp.Proofs.Session.Effect

/-!
What a form that fails leaves behind. A macro is registered as soon as its definition is understood.
At the top level of a form nothing can fail any more by then. Below it the rest of the form still
can, and the macro stays.

* `Stage`, `Met`: the sessions and the forms that the analysis of a form comes through.
* `analyze_stages`: an analysis leaves its way only by a definition at the top level, and succeeds.
* `registry_of_failed_form`: of a form that fails, the macros defined below its top level stay.
-/

namespace ScriptLisp.Session

open Grammar Analysis

/-! ### The course of an analysis -/

mutual

/-- The sessions that the analysis of a form comes through, before it defines a macro at its top
level. -/
inductive Stage (start : Session) (root : Form) : Session → Prop
  | start : Stage start root start
  | interned {session : Session} {α : Type} (take : InternTable → Interned α × InternTable)
      (earlier : Stage start root session) :
      Stage start root { session with interned := (take session.interned).2 }
  | called {session : Session} (fuel : Nat) {m : Macro} (registered : m ∈ session.registry)
      (args : List Form) (earlier : Stage start root session) :
      Stage start root (callMacro fuel m args session).2
  | defined {session : Session} {name source : String} {function : Lambda} {definition : List Form}
      (met : Met start root true (.list (.symbol "defmacro" :: .symbol name :: definition)))
      (earlier : Stage start root session) :
      Stage start root (session.withMacro (Name.parse name) source function)

/-- The forms that the analysis of a form comes across, and whether they stand below its top
level. -/
inductive Met (start : Session) (root : Form) : Bool → Form → Prop
  | root : Met start root false root
  | part {below : Bool} {outer inner : Form} (member : inner ∈ outer.codeParts)
      (earlier : Met start root below outer) : Met start root true inner
  | expansion {below : Bool} {outer inner : Form} {fuel : Nat} {session : Session}
      (stage : Stage start root session)
      (expands : (expandUse fuel outer session).1 = .ok (some inner))
      (earlier : Met start root below outer) : Met start root below inner

end

variable {start : Session} {root : Form} {session : Session}

/-- The sessions on the way, as what the steps of an analysis keep. -/
def stages (start : Session) (root : Form) : Invariant where
  holds := Stage start root
  interned take := .interned take

theorem stage_keptByCalls : KeptByCalls (Stage start root) :=
  fun _ fuel args _ registered stage => stage.called fuel registered args

/-! ### Whole forms -/

/-- The analysis of a form stays on its way, unless it ends with a definition at the top level. -/
theorem analyze_stages (fuel : Nat) {form : Form} {below : Bool} (met : Met start root below form)
    (stage : Stage start root session) :
    Stage start root (analyze fuel form session).2 ∨ below = false ∧
      ∃ name function, (analyze fuel form session).1 = .ok (.macroDefinition name function) := by
  induction fuel generalizing form below session with
  | zero => exact .inl stage
  | succ fuel ih =>
    have each : DecidesEach (stages start root) False (analyze fuel) form.codeParts := by
      intro part member session stage
      refine ⟨(ih (met.part member) stage).resolve_right ?_, False.elim⟩
      rintro ⟨⟨⟩, _⟩
    have stageAfter := stage_keptByCalls.expandUse fuel form stage
    rw [analyze_run]
    rcases outcome : Session.expandUse fuel form session with ⟨_ | _ | expanded, after⟩
    · rw [outcome] at stageAfter
      exact .inl stageAfter
    · rw [outcome] at stageAfter
      rcases unexpanded_cases form each stageAfter with
        keeps | ⟨name, definition, rfl, function, source, before, reached, _, ends⟩
      · exact .inl keeps
      · dsimp only at ends ⊢
        rw [ends]
        cases below with
        | false => exact .inr ⟨rfl, _, _, rfl⟩
        | true => exact .inl (.defined met reached)
    · rw [outcome] at stageAfter
      exact ih (met.expansion stage (congrArg Prod.fst outcome)) stageAfter

/-- The macros of a session on the way: those at the start, and those defined below the top
level. -/
theorem Stage.registry {session : Session} (stage : Stage start root session) :
    ∃ defined : List Macro, session.registry = defined.foldl Registry.define start.registry ∧
      ∀ m ∈ defined, ∃ name definition,
        Met start root true (.list (.symbol "defmacro" :: .symbol name :: definition)) ∧
        m.name = (Name.parse name).display := by
  match stage with
  | .start => exact ⟨[], rfl, fun _ member => absurd member List.not_mem_nil⟩
  | .interned _ earlier => exact earlier.registry
  | .called fuel registered args earlier =>
    rw [callMacro_run]
    exact earlier.registry
  | @Stage.defined _ _ _ name source function definition met earlier =>
    obtain ⟨defined, built, each⟩ := earlier.registry
    refine ⟨defined ++ [⟨(Name.parse name).display, source, function⟩], ?_, ?_⟩
    · rw [List.foldl_append, ← built]
      rfl
    · refine List.forall_mem_append.mpr ⟨each, List.forall_mem_singleton.mpr ?_⟩
      exact ⟨name, definition, met, rfl⟩

mutual

/-- Where no macro is defined below the top level, there is none to use. -/
theorem Stage.registry_nil (empty : start.registry = [])
    (noneBelow : ∀ part ∈ root.codeParts, ∀ f, Form.Within Form.codeParts f part →
      f.head? ≠ some "defmacro") {session : Session} (stage : Stage start root session) :
    session.registry = [] := by
  match stage with
  | .start => exact empty
  | .interned _ earlier => exact earlier.registry_nil empty noneBelow
  | .called _ registered _ earlier =>
    rw [earlier.registry_nil empty noneBelow] at registered
    cases registered
  | .defined met _ =>
    rcases met.within empty noneBelow with ⟨⟨⟩, _⟩ | ⟨part, member, within⟩
    exact absurd rfl (noneBelow part member _ within)

/-- Without macros the analysis of a form comes across its code only. -/
theorem Met.within (empty : start.registry = [])
    (noneBelow : ∀ part ∈ root.codeParts, ∀ f, Form.Within Form.codeParts f part →
      f.head? ≠ some "defmacro") {below : Bool} {form : Form} (met : Met start root below form) :
    below = false ∧ form = root ∨
      ∃ part ∈ root.codeParts, Form.Within Form.codeParts form part := by
  match met with
  | .root => exact .inl ⟨rfl, rfl⟩
  | .part member earlier =>
    rcases earlier.within empty noneBelow with ⟨_, rfl⟩ | ⟨part, outer, within⟩
    · exact .inr ⟨form, member, .self⟩
    · exact .inr ⟨part, outer, within.tail member⟩
  | @Met.expansion _ _ _ outer _ fuel session stage expands _ =>
    rw [expandUse_of_no_macros fuel outer (stage.registry_nil empty noneBelow)] at expands
    cases expands

end

theorem generate_macroDefinition (target : Target) (name : Name) (function : Lambda) :
    ∃ text, target.generate (.macroDefinition name function) = .ok text := by
  cases target with
  | javascript => exact ⟨_, rfl⟩
  | ruby => exact ⟨_, rfl⟩

/-- A form that fails leaves a session that its analysis came through: after a definition at its top
level nothing can fail. -/
theorem stage_of_failed_form {fuel : Nat} {form : Form} {session after : Session}
    {halt : Halt FormFault} (failed : compileForm fuel form session = (.error halt, after)) :
    Stage session form after := by
  have way := analyze_stages fuel (.root : Met session form false form) .start
  rw [compileForm, Stateful.bind_run] at failed
  rcases outcome : analyze fuel form session with ⟨_ | node, understood⟩
  · rw [outcome] at failed way
    cases failed
    exact way.resolve_right fun ⟨_, _, _, succeeded⟩ => nomatch succeeded
  · rw [outcome] at failed way
    dsimp only at failed
    rw [Stateful.get_bind_run] at failed
    cases text : understood.target.generate node with
    | ok text =>
      rw [text] at failed
      cases failed
    | error fault =>
      rw [text] at failed
      cases failed
      refine way.resolve_right ?_
      rintro ⟨_, name, function, ⟨⟩⟩
      obtain ⟨_, generated⟩ := generate_macroDefinition after.target name function
      rw [generated] at text
      cases text

/-- A form that fails leaves the macros as they were, but for those that are defined below its top
level, in its code or in what it expands to. -/
theorem registry_of_failed_form (fuel : Nat) (form : Form) (session after : Session)
    (halt : Halt FormFault) (failed : compileForm fuel form session = (.error halt, after)) :
    (∃ defined : List Macro, after.registry = defined.foldl Registry.define session.registry ∧
      ∀ m ∈ defined, ∃ name definition,
        Met session form true (.list (.symbol "defmacro" :: .symbol name :: definition)) ∧
        m.name = (Name.parse name).display) ∧
    ((∀ f, Met session form true f → f.head? ≠ some "defmacro") →
      after.registry = session.registry) := by
  obtain ⟨defined, built, each⟩ := (stage_of_failed_form failed).registry
  refine ⟨⟨defined, built, each⟩, fun none => ?_⟩
  cases defined with
  | nil => exact built
  | cons m _ =>
    obtain ⟨name, definition, met, _⟩ := each m List.mem_cons_self
    exact absurd rfl (none _ met)

/-- The definition `(defmacro m [x] (new x))`, of a macro that cannot be evaluated. -/
def unevaluableMacro : Form :=
  .list [.symbol "defmacro", .symbol "m", .vector [.symbol "x"], .list [.symbol "new", .symbol "x"]]

/-- A definition at the top level that fails leaves nothing behind. -/
theorem registry_of_failed_form_macro :
    ∃ reason after,
      compileForm 9 unevaluableMacro (.new .javascript) = (.error (.fault reason), after) ∧
      (∀ f, Met (.new .javascript) unevaluableMacro true f → f.head? ≠ some "defmacro") ∧
      after.registry = [] := by
  have noneBelow : ∀ part ∈ unevaluableMacro.codeParts, ∀ f,
      Form.Within Form.codeParts f part → f.head? ≠ some "defmacro" := by
    rintro part (_ | ⟨_, ⟨⟩⟩) f (_ | ⟨member, deeper⟩)
    · decide
    · rcases member with _ | ⟨_, ⟨⟩⟩
      rcases deeper with _ | ⟨⟨⟩, _⟩
      decide
  have below : ∀ f, Met (.new .javascript) unevaluableMacro true f →
      f.head? ≠ some "defmacro" := by
    intro f met
    rcases met.within rfl noneBelow with ⟨⟨⟩, _⟩ | ⟨part, member, within⟩
    exact noneBelow part member f within
  refine ⟨_, _, rfl, below, ?_⟩
  exact (registry_of_failed_form 9 unevaluableMacro (.new .javascript) _ _ rfl).2 below

/-- The form `(do (defmacro m [x] x) (if))`. -/
def failsAfterMacro : Form :=
  .list [.symbol "do",
    .list [.symbol "defmacro", .symbol "m", .vector [.symbol "x"], .symbol "x"],
    .list [.symbol "if"]]

theorem macro_outlives_failed_form :
    (compileForm 9 failsAfterMacro (.new .javascript)).1 =
        .error (.fault (.analysis (.invalidForm (.list [.symbol "if"]) .ifShape))) ∧
      (Session.new .javascript).registry = [] ∧
      (compileForm 9 failsAfterMacro (.new .javascript)).2.registry.map (·.name) = ["m"] :=
  ⟨rfl, rfl, rfl⟩

end ScriptLisp.Session
