import ScriptLisp.Proofs.Analysis.SpecialForm

/-!
Analysis accepts exactly the grammar of code, where macros are neither used nor defined. One form is
decided by its head and by the code inside it. Whole forms are decided by induction on fuel, and
more fuel than the size of the form is enough.

* `decides_listForm`, `decides_unexpanded`: one form, if the code inside it is decided.
* `decides_analyze`: whole forms.
* `analyze_accepts_iff_code`: what is accepted, and why the rest is not.
-/

namespace ScriptLisp.Analysis

open Session Grammar

variable {kept : Invariant} {certain : Prop} {step : Step}

/-! ### Lists -/

/-- An operator takes its number of operands, all of which are code. -/
theorem decides_operation {name : String} {operator : Operator}
    (named : Operator.ofName? name = some operator) {operands : List Form}
    (each : DecidesEach kept certain step operands) :
    Decides kept certain (Code (.list (.symbol name :: operands))) anything
      (operation step (.list (.symbol name :: operands)) name) := by
  rw [code_operation_iff named, operation.eq_def]
  simp only [named, Form.operands]
  cases operator with
  | binary operator =>
    rcases operands with _ | ⟨left, _ | ⟨right, _ | _⟩⟩
    case cons.cons.nil =>
      have opens : Code left ∧ Code right ↔
          (∀ n ∈ some 2, [left, right].length = n) ∧ ∀ f ∈ [left, right], Code f := by
        simp
      refine .iff opens ?_
      exact (each left (by simp)).bind fun _ _ => (each right (by simp)).done
    all_goals exact .fail trivial fun opens => absurd (opens.1 2 rfl) (by simp)
  | unary operator =>
    rcases operands with _ | ⟨operand, _ | _⟩
    case cons.nil =>
      have opens : Code operand ↔
          (∀ n ∈ some 1, [operand].length = n) ∧ ∀ f ∈ [operand], Code f := by
        simp
      exact .iff opens (each operand (by simp)).done
    all_goals exact .fail trivial fun opens => absurd (opens.1 1 rfl) (by simp)
  | arithmetic operator =>
    refine .iff (and_iff_right fun _ given => ?_).symm (decides_inOrder each).done
    cases given

/-- A call needs a head that is code. -/
theorem decides_application {head : Form} (free : ∀ name, head = .symbol name → Free name)
    {operands : List Form} (each : DecidesEach kept certain step (head :: operands)) :
    Decides kept certain (Code (.list (head :: operands))) anything
      (application step head operands) := by
  rw [code_call_iff free]
  obtain ⟨first, others⟩ := List.forall_mem_cons.mp each
  exact first.bind fun _ _ => (decides_inOrder others).done

/-- A list is a special form, an operation or a call, by its head, in this order. -/
theorem decides_listForm {elements : List Form}
    (noMacro : (Form.list elements).head? ≠ some "defmacro")
    (each : DecidesEach kept certain step (Form.list elements).codeParts) :
    Decides kept certain (Code (.list elements)) anything (listForm step elements) := by
  rw [listForm.eq_def]
  split
  · exact .pure .emptyList fun _ => trivial
  · rename_i name operands
    rw [Form.codeParts.eq_def] at each
    cases special : SpecialForm.ofName? name with
    | some head =>
      simp only [special] at each ⊢
      rw [code_special_iff special]
      refine decides_special (.list (.symbol name :: operands)) ?_ each
      rintro rfl
      have spelled := List.find?_some special
      exact noMacro (congrArg some (eq_of_beq spelled).symm)
    | none =>
      simp only [special] at each ⊢
      obtain ⟨_, others⟩ := List.forall_mem_cons.mp each
      cases operator : Operator.ofName? name with
      | some operator =>
        exact decides_operation operator others
      | none =>
        refine decides_application ?_ each
        rintro _ ⟨⟩
        exact free_iff.mpr ⟨special, operator⟩
  · rename_i head operands noSymbol
    have parts : (Form.list (head :: operands)).codeParts = head :: operands := by
      cases head with
      | symbol name => exact absurd rfl (noSymbol name)
      | _ => rfl
    rw [parts] at each
    refine decides_application ?_ each
    rintro name rfl
    exact absurd rfl (noSymbol name)

/-! ### Forms -/

/-- The analysis of a form whose head names no macro: of a list, or of a literal. -/
def unexpanded (step : Step) : Form → InSession Node
  | .list elements => listForm step elements
  | other => literal step other

/-- A literal or a list. -/
theorem decides_unexpanded {form : Form} (noMacro : form.head? ≠ some "defmacro")
    (each : DecidesEach kept certain step form.codeParts) :
    Decides kept certain (Code form) anything (unexpanded step form) := by
  rw [unexpanded.eq_def]
  split
  · exact decides_listForm noMacro each
  · rename_i noList
    rw [Form.codeParts_of_not_list noList] at each
    exact decides_literal noList each

theorem analyze_run (fuel : Nat) (form : Form) (session : Session) :
    analyze (fuel + 1) form session =
      match expandUse fuel form session with
      | (.error halt, after) => (.error halt, after)
      | (.ok (some expanded), after) => analyze fuel expanded after
      | (.ok none, after) => unexpanded (analyze fuel) form after := by
  rw [analyze.eq_def]
  dsimp only
  rw [Stateful.bind_run]
  rcases expandUse fuel form session with ⟨_ | _ | _, after⟩
  · rfl
  · cases form with
    | list elements => rfl
    | _ => rfl
  · rfl

/-- A form whose head names no macro is not expanded. -/
theorem expandOnce_of_unknown_head (fuel : Nat) {form : Form} {session : Session}
    (unknown : ∀ head, form.head? = some head → session.registry.find? head = none) :
    expandOnce fuel form session = (.ok none, session) := by
  rw [expandOnce.eq_def]
  split
  · rename_i head args
    rw [Stateful.get_bind_run, unknown head rfl]
    rfl
  · rfl

/-- Only registered names are expanded. -/
theorem expandUse_of_unknown_head (fuel : Nat) {form : Form} {session : Session}
    (unknown : ∀ head, form.head? = some head → session.registry.find? head = none) :
    expandUse fuel form session = (.ok none, session) := by
  rw [expandUse, Stateful.bind_run, expandOnce_of_unknown_head fuel unknown]
  rfl

theorem expandUse_of_no_macros (fuel : Nat) (form : Form) {session : Session}
    (empty : session.registry = []) : expandUse fuel form session = (.ok none, session) := by
  refine expandUse_of_unknown_head fuel fun head _ => ?_
  rw [empty]
  rfl

/-- No macros are defined. -/
def noMacros : Invariant where
  holds session := session.registry = []
  interned _ empty := empty

/-- Where macros are neither used nor defined, analysis decides whether a form is code. -/
theorem decides_analyze (fuel : Nat) {form : Form}
    (noneDefined : ∀ f, Form.Within Form.codeParts f form → f.head? ≠ some "defmacro") :
    Decides noMacros (sizeOf form < fuel) (Code form) anything (analyze fuel form) := by
  induction fuel generalizing form with
  | zero =>
    intro session empty
    exact ⟨empty, fun sure => absurd sure (Nat.not_lt_zero _)⟩
  | succ fuel ih =>
    have each : DecidesEach noMacros (sizeOf form < fuel + 1) (analyze fuel) form.codeParts := by
      intro part member
      refine (ih fun f within => noneDefined f (.part member within)).weaken fun sure => ?_
      have smaller := Form.sizeOf_lt_of_mem_codeParts member
      omega
    intro session empty
    rw [analyze_run, expandUse_of_no_macros fuel form empty]
    exact decides_unexpanded (noneDefined form .self) each session empty

/-- Without macros, forms that define none are accepted exactly if they are code, and a form that
is not is rejected for its shape or for the number of operands of an operator. -/
theorem analyze_accepts_iff_code (form : Form)
    (noneDefined : ∀ f, Form.Within Form.codeParts f form → f.head? ≠ some "defmacro") :
    ∃ enough, ∀ fuel, enough ≤ fuel → ∀ session : Session, session.registry = [] →
      ((∃ node, (analyze fuel form session).1 = .ok node) ↔ Code form) ∧
      ∀ halt, (analyze fuel form session).1 = .error halt →
        (∃ rejected fault, halt = .fault (.analysis (.invalidForm rejected fault))) ∨
        ∃ operator expected got rejected,
          halt = .fault (.analysis (.arityMismatch operator expected got rejected)) := by
  refine ⟨sizeOf form + 1, fun fuel enough session empty => ?_⟩
  obtain ⟨_, verdict⟩ := decides_analyze fuel noneDefined session empty
  generalize (analyze fuel form session).1 = ending at verdict ⊢
  cases verdict enough with
  | @accepts node holds _ =>
    exact ⟨iff_of_true ⟨node, rfl⟩ holds, fun _ failed => nomatch failed⟩
  | @rejects fault fails ofForm =>
    refine ⟨iff_of_false (fun ⟨_, given⟩ => nomatch given) fails, ?_⟩
    rintro _ ⟨⟩
    cases fault with
    | invalidForm rejected shape => exact .inl ⟨rejected, shape, rfl⟩
    | arityMismatch operator expected got rejected =>
      exact .inr ⟨operator, expected, got, rejected, rfl⟩
    | unknownOperator => cases ofForm

/-- The form `(fn ([x] (quote (defmacro))) ([x & more] more))`. -/
def twoClauses : Form :=
  .list [.symbol "fn",
    .list [.vector [.symbol "x"], .list [.symbol "quote", .list [.symbol "defmacro"]]],
    .list [.vector [.symbol "x", .symbol "&", .symbol "more"], .symbol "more"]]

theorem code_twoClauses : Code twoClauses := by
  have quotes : Code (.list [.symbol "quote", .list [.symbol "defmacro"]]) :=
    (code_special_iff rfl _).mpr (.quotation _)
  refine (code_special_iff rfl _).mpr (.clauses (List.cons_ne_nil _ _) ?_ ?_)
  · simp only [List.forall_mem_cons, List.not_mem_nil, false_implies, implies_true, and_true]
    refine ⟨.mk (.fixed (by decide) .none) ?_, .mk (.fixed (by decide) (.rest (by decide))) ?_⟩
    · exact List.forall_mem_singleton.mpr quotes
    · exact List.forall_mem_singleton.mpr (.symbol "more")
  · exact ⟨by decide, by decide, by decide⟩

theorem analyze_accepts_iff_code_twoClauses :
    (∀ f, Form.Within Form.codeParts f twoClauses → f.head? ≠ some "defmacro") ∧
      ∃ enough, ∀ fuel, enough ≤ fuel → ∀ session : Session, session.registry = [] →
        ∃ node, (analyze fuel twoClauses session).1 = .ok node := by
  have noneDefined : ∀ f, Form.Within Form.codeParts f twoClauses → f.head? ≠ some "defmacro" := by
    rintro f (_ | ⟨member, deeper⟩)
    · decide
    -- The two bodies hold no code of their own: a quotation and a name.
    · rcases member with _ | ⟨_, _ | ⟨_, ⟨⟩⟩⟩
      all_goals
        rcases deeper with _ | ⟨⟨⟩, _⟩
        decide
  obtain ⟨enough, decided⟩ := analyze_accepts_iff_code twoClauses noneDefined
  refine ⟨noneDefined, enough, fun fuel above session empty => ?_⟩
  exact (decided fuel above session empty).1.mpr code_twoClauses

end ScriptLisp.Analysis
