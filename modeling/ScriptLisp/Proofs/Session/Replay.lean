import ScriptLisp.Proofs.Analysis.Composition
import ScriptLisp.Proofs.Session.Expansion

/-!
What was understood once is understood again. As long as a session has no macros, the analysis of a
form depends on its target and on the instances of literals only; so in every later state of the
session the same form gives the same node again, with the same instances, and changes nothing.

* `Continues`: a later state of a session without macros.
* `Replays`: a step that can be repeated in all later states, with a rule for each way to build one.
* `replays_analyze`: analysis is such a step.
* `Replays.settled_bind`: in a session that a sequence leaves as it is, so does each part.
-/

namespace ScriptLisp.Session

open Analysis

/-! ### Later states -/

/-- A session without macros that knows all instances of another one for the same target. -/
structure Continues (session later : Session) : Prop where
  target : later.target = session.target
  noMacros : later.registry = []
  interned : session.interned.Extends later.interned

namespace Continues

variable {session later last : Session}

theorem refl (noMacros : session.registry = []) : Continues session session :=
  ⟨rfl, noMacros, .refl _⟩

theorem trans (first : Continues session later) (second : Continues later last) :
    Continues session last where
  target := second.target.trans first.target
  noMacros := second.noMacros
  interned := first.interned.trans second.interned

end Continues

/-- Where a step succeeds and there are no macros afterwards, there were none before. In all later
states it then does the same, and leaves them as they are. -/
def Replays {α : Type} (step : InSession α) : Prop :=
  ∀ ⦃session after : Session⦄ ⦃value : α⦄, step session = (.ok value, after) →
    after.registry = [] →
    session.registry = [] ∧ Continues session after ∧
      ∀ later, Continues after later → step later = (.ok value, later)

variable {α β : Type}

/-! ### Rules for steps -/

namespace Replays

theorem pure (value : α) : Replays (Pure.pure value : InSession α) := by
  rintro session _ _ ⟨⟩ noMacros
  exact ⟨noMacros, .refl noMacros, fun _ _ => rfl⟩

theorem throw (halt : Halt FormFault) : Replays (MonadExcept.throw halt : InSession α) := by
  rintro session _ _ ⟨⟩

/-- The second step starts where the first one ended, in both runs. -/
theorem bind {first : InSession α} {second : α → InSession β} (starts : Replays first)
    (goesOn : ∀ value, Replays (second value)) : Replays (first >>= second) := by
  intro session after result ran noMacros
  rw [Stateful.bind_run] at ran
  rcases outcome : first session with ⟨halt | value, between⟩
  · rw [outcome] at ran
    cases ran
  · rw [outcome] at ran
    obtain ⟨noneBetween, rest, again⟩ := goesOn value ran noMacros
    obtain ⟨none, start, before⟩ := starts outcome noneBetween
    refine ⟨none, start.trans rest, ?_⟩
    intro later continues
    rw [Stateful.bind_run, before later (rest.trans continues)]
    exact again later continues

theorem variableOf (name : String) : Replays (Session.variableOf name) := by
  rintro session _ _ ⟨⟩ noMacros
  refine ⟨noMacros, .refl noMacros, ?_⟩
  intro later continues
  change (Except.ok ((Name.parse name).toVariable later.target), later) = _
  rw [continues.target]

/-- A literal is found where it was put. -/
theorem intern {take : InternTable → Interned α × InternTable} {wrap : α → Literal} {asked : α}
    (gives : ∀ table : InternTable, table.Gives wrap asked (take table))
    (repeats : InternTable.Repeats take) : Replays (Session.intern take) := by
  rintro session _ _ ⟨⟩ noMacros
  refine ⟨noMacros, ⟨rfl, noMacros, (gives session.interned).grows⟩, ?_⟩
  intro later continues
  change (Except.ok (take later.interned).1, { later with interned := (take later.interned).2 }) = _
  rw [repeats session.interned later.interned continues.interned]

/-- A macro that was defined is there afterwards. -/
theorem defineMacro (name : Name) (function : Lambda) :
    Replays (Session.defineMacro name function) := by
  intro session after value ran noMacros
  rcases defineMacro_cases name function session with ⟨reason, failed⟩ | ⟨source, -, -, registered⟩
  · rw [failed] at ran
    cases ran
  · rw [registered] at ran
    cases ran
    cases noMacros

/-- What is composed like something else can be repeated if the analyses in it can. -/
theorem of_composed {step other : Step} (each : ∀ form, Replays (step form))
    {final : InternTable} {known : Prop} {result : α → Prop} {part like : InSession α}
    (composed : Composed step other final known result part like) : Replays part := by
  induction composed with
  | pure _ => exact .pure _
  | throw halt => exact .throw halt
  | bind _ _ starts goesOn => exact starts.bind goesOn
  | variableOf name => exact .variableOf name
  | intern gives repeats => exact .intern gives repeats
  | defineMacro name function => exact .defineMacro name function
  | analysis form => exact each form

/-- If a sequence leaves a session without macros as it is, so does each part of it. -/
theorem settled_bind {first : InSession α} {second : α → InSession β} (starts : Replays first)
    (goesOn : ∀ value, Replays (second value)) {session : Session}
    (noMacros : session.registry = []) {result : β}
    (ran : (first >>= second) session = (.ok result, session)) :
    ∃ value, first session = (.ok value, session) ∧
      second value session = (.ok result, session) := by
  rw [Stateful.bind_run] at ran
  rcases outcome : first session with ⟨halt | value, between⟩
  · rw [outcome] at ran
    cases ran
  · rw [outcome] at ran
    obtain ⟨noneBetween, rest, -⟩ := goesOn value ran noMacros
    obtain ⟨-, -, again⟩ := starts outcome noneBetween
    have same := again session rest
    rw [outcome] at same
    cases same
    exact ⟨value, rfl, ran⟩

end Replays

/-! ### Analysis -/

/-- By the one principle about two analyses, which are the same one here. -/
theorem replays_analyze (fuel : Nat) (form : Form) : Replays (analyze fuel form) := by
  induction fuel generalizing form with
  | zero => exact .throw _
  | succ fuel ih =>
    have composed : Composed (analyze fuel) (analyze fuel) .empty True _
        (unexpanded (analyze fuel) form) _ := composed_unexpanded form
    have inner := Replays.of_composed ih composed
    intro session after value ran noMacros
    -- Expansion defines no macros, so there are none before it either and it does nothing.
    have kept := (registry_keptByCalls session.registry).expandUse fuel form rfl
    have none : session.registry = [] := by
      rw [analyze_run] at ran
      rcases outcome : expandUse fuel form session with ⟨_ | _ | next, between⟩
      · rw [outcome] at ran
        cases ran
      · rw [outcome] at ran kept
        rw [← kept]
        exact (inner ran noMacros).1
      · rw [outcome] at ran kept
        rw [← kept]
        exact (ih next ran noMacros).1
    rw [analyze_run, expandUse_of_no_macros fuel form none] at ran
    obtain ⟨-, continues, again⟩ := inner ran noMacros
    refine ⟨none, continues, ?_⟩
    intro later continuesOn
    rw [analyze_run, expandUse_of_no_macros fuel form continuesOn.noMacros]
    exact again later continuesOn

end ScriptLisp.Session
