import ScriptLisp.Proofs.Analysis.Composition
import ScriptLisp.Proofs.Session.Effect

/-!
What analysis makes. Whatever the form, and whether macros are expanded on the way or not, the nodes
of an analysis are put together in the same way, and the tables of the session only grow, so that
what was taken once stays known.

* `Yields`: a step that makes such nodes, and keeps the tables in order however it ends.
* `yields_of_composed`: what is composed of such steps is such a step.
* `yields_analyze`: analysis is one.
-/

namespace ScriptLisp

namespace Session

variable {α β : Type}

/-! ### Steps that make nodes -/

/-- A step extends the tables of its session and keeps them canonical, however it ends. What it
gives is as said once the `final` tables hold all that it took, if what is `known` about them at its
start is true. -/
def Yields (final : InternTable) (known : Prop) (result : α → Prop) (step : InSession α) : Prop :=
  ∀ session : Session, (session.interned.Extends final → known) →
    (session.interned.Canonical → (step session).2.interned.Canonical) ∧
    session.interned.Extends (step session).2.interned ∧
    ((step session).2.interned.Extends final → ∀ value, (step session).1 = .ok value → result value)

section Rules

variable {final : InternTable} {known : Prop} {result : α → Prop} {answer : β → Prop}

theorem Yields.pure {value : α} (given : known → result value) :
    Yields final known result (Pure.pure value) := by
  intro session learned
  refine ⟨id, .refl _, fun included other same => ?_⟩
  cases same
  exact given (learned included)

theorem Yields.throw (halt : Halt FormFault) :
    Yields final known result (MonadExcept.throw halt : InSession α) := by
  intro session _
  exact ⟨id, .refl _, fun _ _ same => nomatch same⟩

/-- What is known of a result may be used in what follows. -/
theorem Yields.bind {first : InSession α} {second : α → InSession β}
    (starts : Yields final known result first)
    (goesOn : ∀ value, Yields final (known ∧ result value) answer (second value)) :
    Yields final known answer (first >>= second) := by
  intro session learned
  obtain ⟨keeps, grows, gives⟩ := starts session learned
  rw [Stateful.bind_run]
  rcases outcome : first session with ⟨halt | value, after⟩
  · rw [outcome] at keeps grows
    exact ⟨keeps, grows, fun _ _ same => nomatch same⟩
  · rw [outcome] at keeps grows gives
    obtain ⟨keepsOn, growsOn, answers⟩ := goesOn value after fun included =>
      ⟨learned (grows.trans included), gives included value rfl⟩
    exact ⟨fun canonical => keepsOn (keeps canonical), grows.trans growsOn, answers⟩

theorem yields_variableOf (name : String) :
    Yields final known anything (variableOf name) := by
  intro session _
  exact ⟨id, .refl _, fun _ _ _ => trivial⟩

/-- A literal that was taken is held in every later table. -/
theorem yields_intern {take : InternTable → Interned α × InternTable} {wrap : α → Literal}
    {asked : α} (gives : ∀ table : InternTable, table.Gives wrap asked (take table)) :
    Yields final known (fun interned => interned.value = asked ∧
      final.Holds interned.index (wrap asked)) (intern take) := by
  intro session _
  have given := gives session.interned
  refine ⟨given.canonical, given.grows, fun included value same => ?_⟩
  cases same
  exact ⟨given.value, given.holds.extended included⟩

theorem yields_defineMacro (name : Name) (function : Lambda) :
    Yields final known anything (defineMacro name function) := by
  intro session _
  rcases defineMacro_cases name function session with
    ⟨reason, failed⟩ | ⟨source, _, _, registered⟩
  · rw [failed]
    exact ⟨id, .refl _, fun _ _ _ => trivial⟩
  · rw [registered]
    exact ⟨id, .refl _, fun _ _ _ => trivial⟩

end Rules

end Session

namespace Analysis

open Session Node

variable {final : InternTable} {known : Prop}

/-- A step that makes a node of every form. -/
def MakesNodes (final : InternTable) (step : Step) : Prop :=
  ∀ known form, Yields final known (Made final .inner) (step form)

/-- What is composed like something else makes what is said of its result if the analyses in it make
nodes. -/
theorem yields_of_composed {step other : Step} (makes : MakesNodes final step) {α : Type}
    {result : α → Prop} {part like : InSession α}
    (composed : Composed step other final known result part like) :
    Yields final known result part := by
  induction composed with
  | pure given => exact .pure given
  | throw halt => exact .throw halt
  | bind _ _ starts goesOn => exact starts.bind goesOn
  | variableOf name => exact yields_variableOf name
  | intern gives _ => exact yields_intern gives
  | defineMacro name function => exact yields_defineMacro name function
  | analysis form => exact makes _ form

/-- The rules for each form, from the one principle about two analyses. -/
theorem yields_unexpanded {step : Step} (makes : MakesNodes final step) (form : Form) :
    Yields final known (Made final .inner) (unexpanded step form) := by
  have composed : Composed step step final known _ (unexpanded step form) _ :=
    composed_unexpanded form
  exact yields_of_composed makes composed

/-- Expansion takes no literals: it calls macros, and those run on the machine of the session. -/
theorem yields_expandUse (fuel : Nat) (form : Form) :
    Yields final known anything (expandUse fuel form) := by
  intro session _
  have kept : KeptByCalls fun after => after.interned = session.interned := by
    intro before fuel args m _ same
    rw [callMacro_run]
    exact same
  rw [kept.expandUse fuel form rfl]
  exact ⟨id, .refl _, fun _ _ _ => trivial⟩

/-- Analysis makes a node of every form that it accepts, and keeps the tables in order whether it
accepts the form or not. -/
theorem yields_analyze (final : InternTable) (fuel : Nat) : MakesNodes final (analyze fuel) := by
  induction fuel with
  | zero => exact fun _ _ => .throw _
  | succ fuel ih =>
    intro known form
    rw [analyze.eq_def]
    refine (yields_expandUse fuel form).bind fun expanded => ?_
    split
    · exact ih _ _
    · exact yields_unexpanded ih form

end Analysis

end ScriptLisp
