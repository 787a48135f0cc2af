import ScriptLisp.Proofs.Analysis.Decision

/-!
Data, literals and functions are decided. Data is always accepted, and a literal is if what it holds
is code. A function is accepted if its parameters and bodies are, and its clauses go together.

* `decides_literal`: every form that is no list.
* `arityFault?_eq_none_iff`: no fault is found in several clauses exactly if they follow the rules.
* `decides_function`: functions, of macros too.
-/

namespace ScriptLisp.Analysis

open Session Grammar

variable {kept : Invariant} {certain : Prop}

theorem decides_variableOf (name : String) :
    Decides kept certain True anything (variableOf name) := by
  intro session holds
  exact ⟨holds, fun _ => .accepts trivial trivial⟩

theorem decides_intern {α : Type} (take : InternTable → Interned α × InternTable) :
    Decides kept certain True anything (intern take) := by
  intro session holds
  exact ⟨kept.interned take holds, fun _ => .accepts trivial trivial⟩

/-! ### Data -/

/-- Data is always accepted: it has no shape to reject. -/
theorem decides_nil : Decides kept certain True anything nil :=
  (decides_intern _).done

mutual

/-- By induction on the form, as `quoted` goes through it. -/
theorem decides_quoted (form : Form) : Decides kept certain True anything (quoted form) := by
  match form with
  | .nil => exact decides_nil
  | .boolean _ | .integer _ | .string _ | .keyword _ | .symbol _ =>
    exact (decides_intern _).done
  | .rational _ _ | .decimal _ => exact .pure trivial fun _ => trivial
  | .list forms | .vector forms | .set forms =>
    exact (decides_quotedAll forms).done
  | .map entries => exact (decides_quotedEntries entries).done

theorem decides_quotedAll (forms : List Form) :
    Decides kept certain True anything (quotedAll forms) := by
  match forms with
  | [] => exact .pure trivial fun _ => trivial
  | form :: rest =>
    exact (decides_quoted form).after fun _ _ => (decides_quotedAll rest).done

theorem decides_quotedEntries (entries : List (Form × Form)) :
    Decides kept certain True anything (quotedEntries entries) := by
  match entries with
  | [] => exact .pure trivial fun _ => trivial
  | (key, item) :: rest =>
    exact (decides_quoted key).after fun _ _ => (decides_quoted item).after fun _ _ =>
      (decides_quotedEntries rest).done

end

/-! ### Sequences and literals -/

/-- A step decides of each of some forms whether it is code. -/
def DecidesEach (kept : Invariant) (certain : Prop) (step : Step) (forms : List Form) : Prop :=
  ∀ f ∈ forms, Decides kept certain (Code f) anything (step f)

section Step

variable {step : Step}

/-- Forms in order are accepted exactly if each one is. -/
theorem decides_inOrder {forms : List Form} (each : DecidesEach kept certain step forms) :
    Decides kept certain (∀ f ∈ forms, Code f) anything (inOrder step forms) := by
  induction forms with
  | nil => exact .pure (List.forall_mem_nil _) fun _ => trivial
  | cons form rest ih =>
    obtain ⟨first, others⟩ := List.forall_mem_cons.mp each
    refine .iff List.forall_mem_cons.symm (first.bind fun _ _ => ?_)
    exact (ih others).done

/-- Keys and values are both code. -/
theorem decides_entriesInOrder {entries : List (Form × Form)}
    (each : DecidesEach kept certain step (Form.map entries).parts) :
    Decides kept certain (∀ e ∈ entries, Code e.1 ∧ Code e.2) anything
      (entriesInOrder step entries) := by
  induction entries with
  | nil => exact .pure (List.forall_mem_nil _) fun _ => trivial
  | cons entry rest ih =>
    have others : DecidesEach kept certain step (Form.map rest).parts :=
      fun f member => each f (List.mem_append_right _ member)
    rw [List.forall_mem_cons, and_assoc]
    refine (each entry.1 (by simp [Form.parts])).bind fun _ _ => ?_
    refine (each entry.2 (by simp [Form.parts])).bind fun _ _ => ?_
    exact (ih others).done

/-- A form that is no list is code if what it holds is. -/
theorem decides_literal {form : Form} (noList : ∀ elements, form ≠ .list elements)
    (each : DecidesEach kept certain step form.parts) :
    Decides kept certain (Code form) anything (literal step form) := by
  cases form with
  | nil => exact .iff (iff_of_true trivial .nil) decides_nil
  | boolean b =>
    exact .iff (iff_of_true trivial (.boolean b)) ((decides_intern _).done)
  | integer i =>
    exact .iff (iff_of_true trivial (.integer i)) ((decides_intern _).done)
  | string s =>
    exact .iff (iff_of_true trivial (.string s)) ((decides_intern _).done)
  | keyword k =>
    exact .iff (iff_of_true trivial (.keyword k)) ((decides_intern _).done)
  | symbol s =>
    exact .iff (iff_of_true trivial (.symbol s))
      ((decides_variableOf s).done)
  | rational n d => exact .pure (.rational n d) fun _ => trivial
  | decimal d => exact .pure (.decimal d) fun _ => trivial
  | list elements => exact absurd rfl (noList elements)
  | vector elements =>
    refine .iff ⟨.vector, ?_⟩ ((decides_inOrder each).done)
    rintro ⟨⟩
    assumption
  | set elements =>
    refine .iff ⟨.set, ?_⟩ ((decides_inOrder each).done)
    rintro ⟨⟩
    assumption
  | map entries =>
    refine .iff ⟨?_, ?_⟩ ((decides_entriesInOrder each).done)
    · exact fun both => .map (fun e member => (both e member).1) fun e member => (both e member).2
    · intro code e member
      cases code with
      | map keys values => exact ⟨keys e member, values e member⟩

/-! ### Functions -/

/-- The arity of a clause with some parameters. -/
def arityOf (parameters : Params) : ClauseArity :=
  ⟨parameters.required, parameters.isVariadic⟩

/-- An ordinary name before the others is one more fixed parameter. -/
theorem ofParameters_fixed {name : String} (ordinary : name ≠ "&") (others : List Form) :
    ClauseArity.ofParameters (.symbol name :: others) =
      ⟨(ClauseArity.ofParameters others).required + 1,
        (ClauseArity.ofParameters others).variadic⟩ := by
  simp [ClauseArity.ofParameters, isRestMark, ordinary]

/-- Parameters are accepted exactly if they follow the grammar, and then have the arity that it
gives. -/
theorem decides_params (form : Form) (parameters : List Form) :
    Decides kept certain (Parameters parameters)
      (fun given => arityOf given = .ofParameters parameters) (params form parameters) := by
  fun_induction params form parameters with
  | case1 => exact .pure .none fun _ => rfl
  | case2 =>
    refine .reject form _ ?_
    rintro (_ | _ | ⟨ordinary, _⟩)
    exact ordinary rfl
  | case3 =>
    refine .reject form _ ?_
    rintro (_ | ordinary | ⟨ordinary, _⟩)
    · exact ordinary rfl
    · exact ordinary rfl
  | case4 rest ordinary =>
    refine .iff (iff_of_true trivial (.rest ordinary)) ?_
    exact (decides_variableOf rest).returning fun _ _ _ => rfl
  | case5 remaining some noName =>
    refine .reject form _ ?_
    rintro (_ | _ | ⟨ordinary, _⟩)
    · exact noName _ rfl
    · exact ordinary rfl
  | case6 name remaining ordinary ih =>
    have opens : Parameters remaining ↔ Parameters (.symbol name :: remaining) := by
      refine ⟨.fixed ordinary, ?_⟩
      rintro (_ | _ | ⟨_, follow⟩)
      · exact absurd rfl ordinary
      · exact follow
    refine .iff opens ((decides_variableOf name).after fun _ _ => ?_)
    refine ih.returning fun _ others given => ?_
    rw [ofParameters_fixed ordinary, ← given]
    rfl
  | case7 parameters nonempty noSymbol =>
    refine .reject form _ ?_
    rintro (_ | _ | _)
    · exact nonempty rfl
    · exact noSymbol _ _ rfl
    · exact noSymbol _ _ rfl

theorem decides_body {forms : List Form} (each : DecidesEach kept certain step forms) :
    Decides kept certain (∀ f ∈ forms, Code f) anything (body step forms) :=
  (decides_inOrder each).done

/-- A clause is its parameters and its body; what is known of it later is its arity. -/
theorem decides_clause (form : Form) (parameters : List Form) {forms : List Form}
    (each : DecidesEach kept certain step forms) :
    Decides kept certain (Parameters parameters ∧ ∀ f ∈ forms, Code f)
      (fun given => arityOf given.params = .ofParameters parameters)
      (clause step form parameters forms) := by
  refine (decides_params form parameters).bind fun _ known => ?_
  exact (decides_body each).returning fun sure _ _ => known sure

/-- The clauses of a function in order, with the arities that the grammar reads off the forms. -/
theorem decides_clauses (form : Form) (forms : List Form)
    (each : DecidesEach kept certain step (forms.flatMap clauseCode)) :
    Decides kept certain (∀ c ∈ forms, Grammar.Clause c)
      (fun given => given.map (fun c => arityOf c.params) = forms.map .ofClause)
      (clauses step form forms) := by
  fun_induction clauses step form forms with
  | case1 =>
    exact .pure (List.forall_mem_nil _) fun _ => rfl
  | case2 parameters forms rest ih =>
    have eachHere : DecidesEach kept certain step forms :=
      fun f member => each f (List.mem_append_left _ member)
    have eachRest : DecidesEach kept certain step (rest.flatMap clauseCode) :=
      fun f member => each f (List.mem_append_right _ member)
    have opens : (Parameters parameters ∧ ∀ f ∈ forms, Code f) ↔
        Grammar.Clause (.list (.vector parameters :: forms)) :=
      ⟨fun parts => .mk parts.1 parts.2, fun | .mk takes each => ⟨takes, each⟩⟩
    rw [List.forall_mem_cons, ← opens]
    refine (decides_clause form parameters eachHere).bind fun first known => ?_
    refine (ih eachRest).returning fun sure others given => ?_
    rw [List.map_cons, List.map_cons, known sure, given, ClauseArity.ofClause]
  | case3 forms nonempty noClause =>
    refine .reject form _ ?_
    intro all
    cases forms with
    | nil => exact nonempty rfl
    | cons first rest =>
      obtain ⟨_, _⟩ := all first List.mem_cons_self
      exact noClause _ _ _ rfl

/-! ### Several clauses -/

/-- The check goes through the fixed clauses with the counts seen so far; it finds nothing exactly
if all counts are new and none exceeds what the variadic clause requires. -/
theorem check_eq_none_iff (variadic : Option Params) (seen : List Nat) (fixed : List Params) :
    arityFault?.check variadic seen fixed = none ↔
      (∀ p ∈ fixed, p.required ∉ seen) ∧ (fixed.map (·.required)).Nodup ∧
        ∀ v ∈ variadic, ∀ p ∈ fixed, p.required ≤ v.required := by
  fun_induction arityFault?.check variadic seen fixed with
  | case1 => simp
  | case2 seen p rest repeated =>
    refine iff_of_false (Option.some_ne_none _) fun ⟨new, _⟩ => ?_
    exact new p List.mem_cons_self (List.contains_iff_mem.mp repeated)
  | case3 seen p rest new above =>
    refine iff_of_false (Option.some_ne_none _) fun ⟨_, _, within⟩ => ?_
    obtain ⟨v, given, above⟩ := (Option.any_eq_true _ _).mp above
    exact absurd (within v given p List.mem_cons_self) (Nat.not_le.mpr (of_decide_eq_true above))
  | case4 seen p rest new within ih =>
    have fresh : p.required ∉ seen := fun member => new (List.contains_iff_mem.mpr member)
    have below : ∀ v ∈ variadic, p.required ≤ v.required := by
      refine fun v given => Nat.not_lt.mp fun above => within ?_
      exact (Option.any_eq_true _ _).mpr ⟨v, given, decide_eq_true above⟩
    rw [ih]
    grind

theorem mem_head?_of_length_le_one {α : Type} {list : List α} (one : list.length ≤ 1) {a : α}
    (member : a ∈ list) : a ∈ list.head? := by
  match list, one, member with
  | [_], _, .head _ => rfl

/-- The faults of arities are exactly the violations of the rules of the grammar. -/
theorem arityFault?_eq_none_iff (parameters : List Params) :
    arityFault? parameters = none ↔ ArityRules (parameters.map arityOf) := by
  have variadic : (parameters.map arityOf).filter (·.variadic) =
      (parameters.filter (·.isVariadic)).map arityOf := List.filter_map
  have fixed : ((parameters.map arityOf).filter fun c => !c.variadic) =
      (parameters.filter fun p => !p.isVariadic).map arityOf := List.filter_map
  simp only [arityFault?]
  split
  · rename_i several
    refine iff_of_false (Option.some_ne_none _) fun ⟨one, _, _⟩ => ?_
    rw [variadic, List.length_map] at one
    exact absurd one (Nat.not_le.mpr several)
  · rename_i one
    rw [check_eq_none_iff]
    constructor
    · rintro ⟨_, distinct, within⟩
      refine ⟨?_, ?_, ?_⟩
      · rw [variadic, List.length_map]
        exact Nat.not_lt.mp one
      · rw [fixed, List.map_map]
        exact distinct
      · simp only [List.forall_mem_map]
        intro v member isVariadic p memberFixed isFixed
        have given : v ∈ parameters.filter (·.isVariadic) :=
          List.mem_filter.mpr ⟨member, isVariadic⟩
        refine within v (mem_head?_of_length_le_one (Nat.not_lt.mp one) given) p ?_
        exact List.mem_filter.mpr ⟨memberFixed, congrArg (!·) isFixed⟩
    · rintro ⟨_, distinct, within⟩
      rw [fixed, List.map_map] at distinct
      refine ⟨fun _ _ => List.not_mem_nil, distinct, fun v given p memberFixed => ?_⟩
      obtain ⟨member, isVariadic⟩ := List.mem_filter.mp (List.mem_of_mem_head? given)
      obtain ⟨memberFixed, isFixed⟩ := List.mem_filter.mp memberFixed
      refine within _ (List.mem_map_of_mem member) isVariadic _ (List.mem_map_of_mem memberFixed) ?_
      exact Bool.not_eq_true _ ▸ Bool.not_eq_eq_eq_not.mp isFixed

/-- A function with one clause or several, and the rules on the arities of several. -/
theorem decides_function (form : Form) (definition : List Form)
    (each : DecidesEach kept certain step (functionCode definition)) :
    Decides kept certain (Operands .function definition) anything
      (function step form definition) := by
  unfold function
  split
  · rename_i parameters forms
    refine .iff ⟨fun parts => .function parts.1 parts.2, fun shaped => ?_⟩
      (decides_clause form parameters each).done
    cases shaped with
    | function takes each => exact ⟨takes, each⟩
    | clauses _ all => cases all _ List.mem_cons_self
  · rename_i elements rest
    have eachClause : DecidesEach kept certain step
      ((.list elements :: rest).flatMap clauseCode) := each
    have opens : (∀ c ∈ .list elements :: rest, Grammar.Clause c) ∧
        ArityRules ((.list elements :: rest).map .ofClause) ↔
        Operands .function (.list elements :: rest) := by
      refine ⟨fun ⟨all, rules⟩ => .clauses (List.cons_ne_nil _ _) all rules, fun shaped => ?_⟩
      cases shaped with
      | clauses _ all rules => exact ⟨all, rules⟩
    refine .iff opens ((decides_clauses form _ eachClause).bind fun given known => ?_)
    have decided : certain → (arityFault? (given.map (·.params)) = none ↔
        ArityRules ((.list elements :: rest).map .ofClause)) := by
      intro sure
      rw [arityFault?_eq_none_iff, List.map_map, ← known sure]
      rfl
    split
    · rename_i fault broken
      refine .iffWhere (fun sure => iff_of_false id ?_) (.reject form fault id)
      exact fun rules => Option.some_ne_none fault (broken.symm.trans ((decided sure).mpr rules))
    · rename_i unbroken
      refine .iffWhere (fun sure => ?_) (.pure trivial fun _ => trivial)
      exact iff_of_true trivial ((decided sure).mp unbroken)
  · rename_i noVector noList
    refine .reject form _ fun shaped => ?_
    cases shaped with
    | function => exact noVector _ _ rfl
    | clauses nonempty all =>
      obtain ⟨first, rest, rfl⟩ := List.exists_cons_of_ne_nil nonempty
      obtain ⟨_, _⟩ := all first List.mem_cons_self
      exact noList _ _ rfl

end Step

end ScriptLisp.Analysis
