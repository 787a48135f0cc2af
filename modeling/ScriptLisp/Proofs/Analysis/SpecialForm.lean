import ScriptLisp.Proofs.Analysis.Function

/-!
Special forms are decided. The head of a special form selects the shapes that may follow it. It is
accepted if what follows has one of them and the code in it is accepted, and rejected for its shape
or for that code if not.

* `decides_branches`, `decides_bindings`, `decides_members`: parts that come one after the other.
* `clausesAfter_iff`: clauses of a handler that are taken one by one go together in three ways.
* `decides_special`: every special form but the definition of a macro.
-/

namespace ScriptLisp.Analysis

open Session Grammar

variable {kept : Invariant} {certain : Prop} {step : Step} (form : Form)

/-! ### Definitions and conditionals -/

/-- A name, with a value or without. -/
theorem decides_definition
    (each : DecidesEach kept certain step (codeOperands .definition form.operands)) :
    Decides kept certain (Operands .definition form.operands) anything
      (definition step form) := by
  rw [definition.eq_def]
  generalize form.operands = operands at each ⊢
  split
  · rename_i name value
    have opens : Code value ↔ Operands .definition [.symbol name, value] :=
      ⟨.definition name, fun | .definition _ bound => bound⟩
    refine .iff opens ((decides_variableOf name).after fun _ _ => ?_)
    exact (each value (by simp [codeOperands])).done
  · rename_i name
    refine .iff (iff_of_true trivial (.declaration name)) ?_
    exact (decides_variableOf name).after fun _ _ => decides_nil.done
  · rename_i noValue noName
    refine .reject form _ fun shaped => ?_
    cases shaped with
    | declaration name => exact noName name rfl rfl
    | definition name => exact noValue name _ rfl rfl
  · refine .reject form _ fun shaped => ?_
    cases shaped

theorem even_cons_cons {first second : Form} {rest : List Form} :
    (first :: second :: rest).length % 2 = 0 ↔ rest.length % 2 = 0 := by
  simp only [List.length_cons]
  omega

/-- Tests and consequents in pairs, all of which are code. -/
theorem decides_branches {operands : List Form} (found : Branches)
    (even : operands.length % 2 = 0) (each : DecidesEach kept certain step operands) :
    Decides kept certain (∀ f ∈ operands, Code f) anything (branches step operands found) := by
  fun_induction branches step operands found with
  | case1 test consequent rest found isElse ih =>
    obtain ⟨_, each⟩ := List.forall_mem_cons.mp each
    obtain ⟨first, others⟩ := List.forall_mem_cons.mp each
    -- The test `:else` is not looked at, but it is a keyword and so code.
    have accepted : Code test := by
      split at isElse
      · exact .keyword _
      · cases isElse
    rw [List.forall_mem_cons, List.forall_mem_cons, and_iff_right accepted]
    exact first.bind fun _ _ => ih _ (even_cons_cons.mp even) others
  | case2 test consequent rest found noElse ih =>
    obtain ⟨tested, each⟩ := List.forall_mem_cons.mp each
    obtain ⟨first, others⟩ := List.forall_mem_cons.mp each
    rw [List.forall_mem_cons, List.forall_mem_cons]
    refine tested.bind fun _ _ => first.bind fun _ _ => ?_
    exact ih _ _ (even_cons_cons.mp even) others
  | case3 operands found noPair =>
    match operands with
    | [] => exact .pure (List.forall_mem_nil _) fun _ => trivial
    | [_] => cases even
    | _ :: _ :: _ => exact absurd rfl (noPair _ _ _)

/-- Any even number of operands that are code. -/
theorem decides_cond
    (each : DecidesEach kept certain step (codeOperands .cond form.operands)) :
    Decides kept certain (Operands .cond form.operands) anything (cond step form) := by
  rw [cond.eq_def]
  split
  · rename_i even
    refine .iff ⟨.cond even, fun | .cond _ each => each⟩ ?_
    refine .iff (and_iff_left trivial) ((decides_branches {} even each).bind fun found _ => ?_)
    split
    · exact .pure trivial fun _ => trivial
    · exact decides_nil.done
  · rename_i odd
    exact .reject form _ fun | .cond even _ => odd even

/-- A test, a consequent and at most one alternate. -/
theorem decides_conditional
    (each : DecidesEach kept certain step (codeOperands .conditional form.operands)) :
    Decides kept certain (Operands .conditional form.operands) anything
      (conditional step form) := by
  rw [conditional.eq_def]
  generalize form.operands = operands at each ⊢
  split
  · rename_i test consequent alternate
    have opens : Code test ∧ Code consequent ∧ Code alternate ↔
        Operands .conditional [test, consequent, alternate] :=
      ⟨fun ⟨tested, chosen, otherwise⟩ => .choice tested chosen otherwise,
        fun | .choice tested chosen otherwise => ⟨tested, chosen, otherwise⟩⟩
    refine .iff opens ((each test (by simp [codeOperands])).bind fun _ _ => ?_)
    refine (each consequent (by simp [codeOperands])).bind fun _ _ => ?_
    exact (each alternate (by simp [codeOperands])).done
  · rename_i test consequent
    have opens : Code test ∧ Code consequent ↔ Operands .conditional [test, consequent] :=
      ⟨fun ⟨tested, chosen⟩ => .when tested chosen, fun | .when tested chosen => ⟨tested, chosen⟩⟩
    refine .iff opens ((each test (by simp [codeOperands])).bind fun _ _ => ?_)
    refine .iff (and_iff_left trivial) ?_
    exact (each consequent (by simp [codeOperands])).bind fun _ _ => decides_nil.done
  · rename_i noAlternate noConsequent
    refine .reject form _ fun shaped => ?_
    cases shaped with
    | when => exact noConsequent _ _ rfl
    | choice => exact noAlternate _ _ _ rfl

/-! ### Loops -/

/-- Names and initial values in turn. -/
theorem decides_bindings (names : List Form)
    (each : DecidesEach kept certain step (initialValues names)) :
    Decides kept certain (Bindings names) anything (bindings step form names) := by
  fun_induction bindings step form names with
  | case1 name init rest ih =>
    have opens : Code init ∧ Bindings rest ↔ Bindings (.symbol name :: init :: rest) :=
      ⟨fun ⟨bound, others⟩ => .cons name bound others,
        fun | .cons _ bound others => ⟨bound, others⟩⟩
    obtain ⟨first, others⟩ := List.forall_mem_cons.mp each
    refine .iff opens ((decides_variableOf name).after fun _ _ => ?_)
    exact first.bind fun _ _ => (ih others).done
  | case2 => exact .pure .none fun _ => trivial
  | case3 names noPair nonempty =>
    refine .reject form _ fun bound => ?_
    cases bound with
    | none => exact nonempty rfl
    | cons => exact noPair _ _ _ rfl

/-- The grammar of bindings has names and values in pairs only. -/
theorem even_of_bindings {names : List Form} (bound : Bindings names) :
    names.length % 2 = 0 := by
  match names, bound with
  | [], .none => rfl
  | _ :: _ :: _, .cons _ _ others => exact even_cons_cons.mpr (even_of_bindings others)

/-- The bindings, then the body. -/
theorem decides_loop
    (each : DecidesEach kept certain step (codeOperands .loop form.operands)) :
    Decides kept certain (Operands .loop form.operands) anything (loop step form) := by
  rw [loop.eq_def]
  generalize form.operands = operands at each ⊢
  split
  · rename_i names forms
    obtain ⟨eachInit, eachForm⟩ := List.forall_mem_append.mp each
    split
    · have opens : (Bindings names ∧ ∀ f ∈ forms, Code f) ↔
          Operands .loop (.vector names :: forms) :=
        ⟨fun ⟨bound, each⟩ => .loop bound each, fun | .loop bound each => ⟨bound, each⟩⟩
      refine .iff opens ((decides_bindings form names eachInit).bind fun _ _ => ?_)
      exact (decides_inOrder eachForm).done
    · rename_i odd
      refine .reject form _ fun shaped => ?_
      cases shaped with
      | loop bound => exact odd (even_of_bindings bound)
  · rename_i noVector
    refine .reject form _ fun shaped => ?_
    cases shaped with
    | loop => exact noVector _ _ rfl

/-! ### Exceptions -/

/-- Exactly one operand. -/
theorem decides_throwing
    (each : DecidesEach kept certain step (codeOperands .throwing form.operands)) :
    Decides kept certain (Operands .throwing form.operands) anything (throwing step form) := by
  rw [throwing.eq_def]
  generalize form.operands = operands at each ⊢
  split
  · rename_i expression
    have opens : Code expression ↔ Operands .throwing [expression] :=
      ⟨.throwing, fun | .throwing thrown => thrown⟩
    exact .iff opens (each expression (by simp [codeOperands])).done
  · rename_i noSingle
    refine .reject form _ fun shaped => ?_
    cases shaped with
    | throwing => exact noSingle _ rfl

/-- The clauses may follow where a handler was given or not, and a cleanup was or not. -/
def ClausesAfter (handled cleaned : Bool) : List Form → Prop
  | [] => True
  | .list (.symbol "catch" :: .symbol _ :: body) :: rest =>
    (handled = false ∧ cleaned = false) ∧ (∀ f ∈ body, Code f) ∧ ClausesAfter true cleaned rest
  | .list (.symbol "finally" :: body) :: rest =>
    cleaned = false ∧ (∀ f ∈ body, Code f) ∧ ClausesAfter handled true rest
  | _ => False

/-- A cleanup comes last. -/
theorem clausesAfter_cleanup_iff (handled : Bool) (clauses : List Form) :
    ClausesAfter handled true clauses ↔ clauses = [] := by
  unfold ClausesAfter
  split
  · exact iff_of_true trivial rfl
  · simp
  · simp
  · rename_i nonempty _ _
    exact iff_of_false id nonempty

/-- Clauses that are taken one by one go together in three ways. -/
theorem clausesAfter_iff (clauses : List Form) :
    ClausesAfter false false clauses ∧ clauses ≠ [] ↔ Grammar.Handlers clauses := by
  constructor
  · rintro ⟨follow, nonempty⟩
    unfold ClausesAfter at follow
    split at follow
    · exact absurd rfl nonempty
    · obtain ⟨_, each, follow⟩ := follow
      unfold ClausesAfter at follow
      split at follow
      · exact .handler _ each
      · exact absurd follow.1.1 (by decide)
      · obtain ⟨_, eachLast, last⟩ := follow
        obtain rfl := (clausesAfter_cleanup_iff _ _).mp last
        exact .both _ each eachLast
      · cases follow
    · obtain ⟨_, each, last⟩ := follow
      obtain rfl := (clausesAfter_cleanup_iff _ _).mp last
      exact .cleanup each
    · cases follow
  · intro handled
    cases handled with
    | handler _ each => exact ⟨by simpa [ClausesAfter] using each, List.cons_ne_nil _ _⟩
    | cleanup each => exact ⟨by simpa [ClausesAfter] using each, List.cons_ne_nil _ _⟩
    | both _ each eachLast =>
      exact ⟨by simpa [ClausesAfter] using ⟨each, eachLast⟩, List.cons_ne_nil _ _⟩

/-- The code of a `catch` clause is its body: its name is bound and not evaluated. -/
theorem handlerCode_handler (name : Form) (body : List Form) :
    handlerCode (.list (.symbol "catch" :: name :: body)) = body := by
  simp [handlerCode, Form.head?, Form.operands]

/-- The code of a `finally` clause is its body. -/
theorem handlerCode_cleanup (body : List Form) :
    handlerCode (.list (.symbol "finally" :: body)) = body := by
  simp [handlerCode, Form.head?, Form.operands]

/-- Any other operand is code itself. -/
theorem handlerCode_plain {f : Form} (plain : ¬ isHandlerClause f = true) :
    handlerCode f = [f] := by
  simp only [isHandlerClause, Bool.or_eq_true, beq_iff_eq, not_or] at plain
  simp [handlerCode, plain]

/-- The clauses that may still follow depend on which ones were found; the result tells whether
there was any. -/
theorem decides_handlers (clauses : List Form) (found : Handlers)
    (each : DecidesEach kept certain step (clauses.flatMap handlerCode)) :
    Decides kept certain (ClausesAfter found.handler.isSome found.cleanup.isSome clauses)
      (fun final => (final.handler.isNone && final.cleanup.isNone) =
        (found.handler.isNone && found.cleanup.isNone && clauses.isEmpty))
      (handlers step form clauses found) := by
  fun_induction handlers step form clauses found with
  | case1 found => exact .pure trivial fun _ => (Bool.and_true _).symm
  | case2 binding body rest found neither ih =>
    rw [List.flatMap_cons, handlerCode_handler] at each
    obtain ⟨eachHere, eachRest⟩ := List.forall_mem_append.mp each
    obtain ⟨_ | _, _ | _⟩ := found
    · refine .iff (and_iff_right ⟨rfl, rfl⟩).symm ((decides_variableOf binding).after fun _ _ => ?_)
      exact (decides_inOrder eachHere).bind fun _ _ => ih _ _ eachRest
    all_goals cases neither
  | case3 binding body rest found given =>
    refine .reject form _ fun ⟨⟨unhandled, uncleaned⟩, _⟩ => given ?_
    rw [← Option.not_isSome, ← Option.not_isSome, unhandled, uncleaned]
    rfl
  | case4 body rest found noCleanup ih =>
    rw [List.flatMap_cons, handlerCode_cleanup] at each
    obtain ⟨eachHere, eachRest⟩ := List.forall_mem_append.mp each
    obtain ⟨handler, _ | _⟩ := found
    · refine .iff (and_iff_right rfl).symm ((decides_inOrder eachHere).bind fun _ _ => ?_)
      cases handler with
      | none => exact ih _ eachRest
      | some => exact ih _ eachRest
    · cases noCleanup
  | case5 body rest found given =>
    refine .reject form _ fun ⟨uncleaned, _⟩ => given ?_
    rw [← Option.not_isSome, uncleaned]
    rfl
  | case6 clauses found nonempty noHandler noCleanup =>
    refine .reject form _ fun follow => ?_
    unfold ClausesAfter at follow
    split at follow
    · exact nonempty rfl
    · exact noHandler _ _ _ rfl
    · exact noCleanup _ _ rfl
    · exact follow

/-- The body of a handler ends where its clauses start. -/
theorem trying_iff (operands : List Form) :
    (∀ f ∈ operands.takeWhile fun f => !isHandlerClause f, Code f) ∧
        Grammar.Handlers (operands.dropWhile fun f => !isHandlerClause f) ↔
      Operands .trying operands := by
  constructor
  · rintro ⟨each, handled⟩
    have plain : ∀ f ∈ operands.takeWhile fun f => !isHandlerClause f,
        f.head? ≠ some "catch" ∧ f.head? ≠ some "finally" := by
      intro f member
      have passes := List.all_eq_true.mp List.all_takeWhile f member
      simpa [isHandlerClause] using passes
    have shaped := Operands.trying plain each handled
    rwa [List.takeWhile_append_dropWhile] at shaped
  · intro shaped
    cases shaped with
    | trying plain each handled =>
      rename_i body clauses
      have passes : ∀ f ∈ body, (!isHandlerClause f) = true := by
        intro f member
        simpa [isHandlerClause] using plain f member
      have starts : clauses.takeWhile (fun f => !isHandlerClause f) = [] ∧
          clauses.dropWhile (fun f => !isHandlerClause f) = clauses := by
        cases handled with
        | handler => exact ⟨rfl, rfl⟩
        | cleanup => exact ⟨rfl, rfl⟩
        | both => exact ⟨rfl, rfl⟩
      rw [List.takeWhile_append_of_pos passes, List.dropWhile_append_of_pos passes, starts.1,
        starts.2, List.append_nil]
      exact ⟨each, handled⟩

/-- The body up to the first handler clause, then the handler clauses. -/
theorem decides_trying
    (each : DecidesEach kept certain step (codeOperands .trying form.operands)) :
    Decides kept certain (Operands .trying form.operands) anything (trying step form) := by
  rw [trying.eq_def]
  generalize form.operands = operands at each ⊢
  have eachBody : DecidesEach kept certain step
      (operands.takeWhile fun f => !isHandlerClause f) := by
    intro f member
    have passes := List.all_eq_true.mp List.all_takeWhile f member
    refine each f (List.mem_flatMap.mpr ⟨f, (List.takeWhile_sublist _).subset member, ?_⟩)
    rw [handlerCode_plain (by simpa using passes)]
    exact List.mem_singleton_self f
  have eachClause : DecidesEach kept certain step
      ((operands.dropWhile fun f => !isHandlerClause f).flatMap handlerCode) := by
    intro f member
    obtain ⟨clause, within, member⟩ := List.mem_flatMap.mp member
    exact each f (List.mem_flatMap.mpr ⟨clause, (List.dropWhile_sublist _).subset within, member⟩)
  rw [← trying_iff, ← clausesAfter_iff]
  refine (decides_inOrder eachBody).bind fun _ _ => ?_
  refine (decides_handlers form _ {} eachClause).bind fun final known => ?_
  split
  · rename_i neither
    refine .iffWhere (fun sure => iff_of_false id fun nonempty => ?_) (.reject form _ id)
    exact nonempty (List.isEmpty_iff.mp ((known sure).symm.trans neither))
  · rename_i given
    refine .iffWhere (fun sure => iff_of_true trivial fun empty => ?_)
      (.pure trivial fun _ => trivial)
    exact given ((known sure).trans (List.isEmpty_iff.mpr empty))

/-! ### Objects of the target -/

/-- A constructor and its arguments, all of which are code. -/
theorem decides_instantiation
    (each : DecidesEach kept certain step (codeOperands .instantiation form.operands)) :
    Decides kept certain (Operands .instantiation form.operands) anything
      (instantiation step form) := by
  rw [instantiation.eq_def]
  generalize form.operands = operands at each ⊢
  split
  · rename_i constructor args
    have opens : (Code constructor ∧ ∀ f ∈ args, Code f) ↔
        Operands .instantiation (constructor :: args) :=
      ⟨fun ⟨made, each⟩ => .instantiation made each,
        fun | .instantiation made each => ⟨made, each⟩⟩
    obtain ⟨first, others⟩ := List.forall_mem_cons.mp each
    exact .iff opens (first.bind fun _ _ => (decides_inOrder others).done)
  · refine .reject form _ fun shaped => ?_
    cases shaped

/-- A method is called on an object that is code; the name of the method is not. -/
theorem decides_methodCall {object : Form} (name : String) {args : List Form}
    (receives : Decides kept certain (Code object) anything (step object))
    (each : DecidesEach kept certain step args) :
    Decides kept certain (Code object ∧ ∀ f ∈ args, Code f) anything
      (methodCall step object name args) := by
  refine receives.bind fun _ _ => (decides_variableOf name).after fun _ _ => ?_
  exact (decides_inOrder each).done

/-- A call in a list of its own, or the name of a method without arguments. -/
theorem decides_method
    (each : DecidesEach kept certain step (codeOperands .method form.operands)) :
    Decides kept certain (Operands .method form.operands) anything (method step form) := by
  rw [method.eq_def]
  generalize form.operands = operands at each ⊢
  split
  · rename_i object name
    have opens : (Code object ∧ ∀ f ∈ [], Code f) ↔ Operands .method [object, .symbol name] :=
      ⟨fun ⟨receives, _⟩ => .method name receives,
        fun | .method _ receives => ⟨receives, List.forall_mem_nil _⟩⟩
    have receives := each object (by simp [codeOperands])
    exact .iff opens (decides_methodCall name receives (List.forall_mem_nil _))
  · rename_i object name args
    have opens : (Code object ∧ ∀ f ∈ args, Code f) ↔
        Operands .method [object, .list (.symbol name :: args)] :=
      ⟨fun ⟨receives, each⟩ => .methodCall name receives each,
        fun | .methodCall _ receives each => ⟨receives, each⟩⟩
    obtain ⟨receives, others⟩ := List.forall_mem_cons.mp each
    exact .iff opens (decides_methodCall name receives others)
  · rename_i noCall
    refine .reject form _ fun shaped => ?_
    cases shaped with
    | methodCall => exact noCall _ _ rfl
  · rename_i noSymbol _ noList
    refine .reject form _ fun shaped => ?_
    cases shaped with
    | method name => exact noSymbol name rfl
    | methodCall name => exact noList _ rfl
  · rename_i noPair
    refine .reject form _ fun shaped => ?_
    cases shaped with
    | method => exact noPair _ _ rfl
    | methodCall => exact noPair _ _ rfl

/-- An object and the name of a property. -/
theorem decides_property
    (each : DecidesEach kept certain step (codeOperands .property form.operands)) :
    Decides kept certain (Operands .property form.operands) anything (property step form) := by
  rw [property.eq_def]
  generalize form.operands = operands at each ⊢
  split
  · rename_i object name
    have opens : Code object ↔ Operands .property [object, .symbol name] :=
      ⟨.property name, fun | .property _ receives => receives⟩
    refine .iff opens (.iff (and_iff_left trivial) ?_)
    refine (each object (by simp [codeOperands])).bind fun _ _ => ?_
    exact (decides_variableOf name).done
  · rename_i noName
    refine .reject form _ fun shaped => ?_
    cases shaped with
    | property => exact noName _ _ rfl

theorem decides_assigned {target value : Form}
    (assigned : Decides kept certain (Code target) anything (step target))
    (given : Decides kept certain (Code value) anything (step value)) :
    Decides kept certain (Code target ∧ Code value) anything
      (Analysis.assigned step target value) :=
  assigned.bind fun _ _ => given.done

/-- Symbols and lists can be assigned to. -/
theorem decides_assignment
    (each : DecidesEach kept certain step (codeOperands .assignment form.operands)) :
    Decides kept certain (Operands .assignment form.operands) anything
      (assignment step form) := by
  have opens {target value : Form}
      (place : (∃ name, target = .symbol name) ∨ ∃ elements, target = .list elements) :
      Code target ∧ Code value ↔ Operands .assignment [target, value] :=
    ⟨fun ⟨assigned, given⟩ => .assignment place assigned given,
      fun | .assignment _ assigned given => ⟨assigned, given⟩⟩
  rw [assignment.eq_def]
  generalize form.operands = operands at each ⊢
  split
  · rename_i name value
    refine .iff (opens (.inl ⟨name, rfl⟩)) (decides_assigned ?_ ?_)
    · exact each _ (by simp [codeOperands])
    · exact each _ (by simp [codeOperands])
  · rename_i elements value
    refine .iff (opens (.inr ⟨elements, rfl⟩)) (decides_assigned ?_ ?_)
    · exact each _ (by simp [codeOperands])
    · exact each _ (by simp [codeOperands])
  · rename_i noSymbol noList
    refine .reject form _ fun shaped => ?_
    cases shaped with
    | assignment place =>
      rcases place with ⟨_, rfl⟩ | ⟨_, rfl⟩
      · exact noSymbol _ _ rfl
      · exact noList _ _ rfl

/-! ### Types and protocols -/

/-- Attributes are symbols. -/
theorem decides_attributes (names : List Form) :
    Decides kept certain (∀ a ∈ names, ∃ spelled, a = .symbol spelled) anything
      (attributes form names) := by
  fun_induction attributes form names with
  | case1 => exact .pure (List.forall_mem_nil _) fun _ => trivial
  | case2 name rest ih =>
    rw [List.forall_mem_cons, and_iff_right ⟨name, rfl⟩]
    exact (decides_variableOf name).after fun _ _ => ih.done
  | case3 names nonempty noSymbol =>
    refine .reject form _ fun all => ?_
    obtain ⟨first, rest, rfl⟩ := List.exists_cons_of_ne_nil nonempty
    obtain ⟨_, rfl⟩ := all first List.mem_cons_self
    exact noSymbol _ _ rfl

/-- Protocols are symbols and methods are lists, in any order. -/
theorem decides_members (forms : List Form) (found : Members)
    (each : DecidesEach kept certain step (forms.flatMap memberCode)) :
    Decides kept certain (∀ m ∈ forms, Member m) anything (members step form forms found) := by
  fun_induction members step form forms found with
  | case1 => exact .pure (List.forall_mem_nil _) fun _ => trivial
  | case2 protocol rest found ih =>
    rw [List.forall_mem_cons, and_iff_right (.protocol protocol)]
    exact (decides_variableOf protocol).after fun _ _ => ih _ each
  | case3 name parameters body rest found ih =>
    obtain ⟨eachHere, eachRest⟩ := List.forall_mem_append.mp each
    have opens : (Parameters parameters ∧ ∀ f ∈ body, Code f) ↔
        Member (.list (.symbol name :: .vector parameters :: body)) :=
      ⟨fun ⟨takes, each⟩ => .method name takes each, fun | .method _ takes each => ⟨takes, each⟩⟩
    rw [List.forall_mem_cons, ← opens, and_assoc]
    refine (decides_variableOf name).after fun _ _ => ?_
    refine (decides_params form parameters).bind fun _ _ => ?_
    exact (decides_body eachHere).bind fun _ _ => ih _ _ _ eachRest
  | case4 elements rest found noMethod =>
    refine .reject form _ fun all => ?_
    cases all _ List.mem_cons_self with
    | method => exact noMethod _ _ _ rfl
  | case5 forms found nonempty noSymbol _ noList =>
    refine .reject form _ fun all => ?_
    obtain ⟨first, rest, rfl⟩ := List.exists_cons_of_ne_nil nonempty
    cases all first List.mem_cons_self with
    | protocol => exact noSymbol _ _ rfl
    | method => exact noList _ _ rfl

/-- A name, attributes in a vector and members. -/
theorem decides_typeDefinition
    (each : DecidesEach kept certain step (codeOperands .typeDefinition form.operands)) :
    Decides kept certain (Operands .typeDefinition form.operands) anything
      (typeDefinition step form) := by
  rw [typeDefinition.eq_def]
  generalize form.operands = operands at each ⊢
  split
  · rename_i name attributes members
    have opens : (∀ a ∈ attributes, ∃ spelled, a = .symbol spelled) ∧ (∀ m ∈ members, Member m) ↔
        Operands .typeDefinition (.symbol name :: .vector attributes :: members) :=
      ⟨fun ⟨named, each⟩ => .typeDefinition name named each,
        fun | .typeDefinition _ named each => ⟨named, each⟩⟩
    refine .iff opens ((decides_variableOf name).after fun _ _ => ?_)
    refine (decides_attributes form attributes).bind fun _ _ => ?_
    exact (decides_members form members {} each).done
  · rename_i noType
    refine .reject form _ fun shaped => ?_
    cases shaped with
    | typeDefinition => exact noType _ _ _ rfl

/-- A name and members. -/
theorem decides_protocolDefinition
    (each : DecidesEach kept certain step (codeOperands .protocolDefinition form.operands)) :
    Decides kept certain (Operands .protocolDefinition form.operands) anything
      (protocolDefinition step form) := by
  rw [protocolDefinition.eq_def]
  generalize form.operands = operands at each ⊢
  split
  · rename_i name members
    have opens : (∀ m ∈ members, Member m) ↔
        Operands .protocolDefinition (.symbol name :: members) :=
      ⟨.protocolDefinition name, fun | .protocolDefinition _ each => each⟩
    refine .iff opens ((decides_variableOf name).after fun _ _ => ?_)
    exact (decides_members form members {} each).done
  · rename_i noName
    refine .reject form _ fun shaped => ?_
    cases shaped with
    | protocolDefinition => exact noName _ _ rfl

/-! ### All special forms -/

/-- Any form can be quoted, and only one at a time. -/
theorem decides_quotation :
    Decides kept certain (Operands .quotation form.operands) anything (quotation form) := by
  rw [quotation.eq_def]
  generalize form.operands = operands
  split
  · rename_i data
    exact .iff (iff_of_true trivial (.quotation data)) (decides_quoted data)
  · rename_i noSingle
    refine .reject form _ fun shaped => ?_
    cases shaped with
    | quotation => exact noSingle _ rfl

/-- A special form other than the definition of a macro is code if what follows its head is what it
takes. -/
theorem decides_special {head : SpecialForm} (noMacro : head ≠ .macroDefinition)
    (each : DecidesEach kept certain step (codeOperands head form.operands)) :
    Decides kept certain (Operands head form.operands) anything (special step form head) := by
  cases head with
  | definition => exact decides_definition form each
  | quotation => exact decides_quotation form
  | cond => exact decides_cond form each
  | conditional => exact decides_conditional form each
  | function => exact (decides_function form _ each).done
  | block =>
    refine .iff ⟨.block, fun | .block each => each⟩ ?_
    exact (decides_inOrder each).done
  | loop => exact decides_loop form each
  | recur =>
    refine .iff ⟨.recur, fun | .recur each => each⟩ ?_
    exact (decides_inOrder each).done
  | throwing => exact decides_throwing form each
  | trying => exact decides_trying form each
  | instantiation => exact decides_instantiation form each
  | method => exact decides_method form each
  | property => exact decides_property form each
  | assignment => exact decides_assignment form each
  | macroDefinition => exact absurd rfl noMacro
  | typeDefinition => exact decides_typeDefinition form each
  | protocolDefinition => exact decides_protocolDefinition form each

end ScriptLisp.Analysis
