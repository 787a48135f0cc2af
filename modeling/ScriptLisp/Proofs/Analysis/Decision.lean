import ScriptLisp.Proofs.Analysis.Grammar
import ScriptLisp.Proofs.Stateful

/-!
Steps that decide something. Most steps of an analysis accept or reject: they end with a result if
some condition on their form is met, and with a fault of the form if it is not. A sequence of such
steps decides the conjunction of what its steps decide. Whatever a step decides, it keeps an
invariant of its session, also where fuel or macros leave its ending open.

* `Verdict`: how a step that decides ends.
* `Invariant`, `Decides`: what a step keeps and what it decides.
* `Decides.bind`, `Decides.after`, `Decides.returning`: sequences of steps.
-/

namespace ScriptLisp

/-- A fault of the form itself, not of a name that was taken for an operator. -/
def AnalysisFault.IsOfForm : AnalysisFault → Prop
  | .invalidForm _ _ | .arityMismatch _ _ _ _ => True
  | .unknownOperator _ _ => False

namespace Session

variable {α β : Type}

/-- A step ends with a result if it accepts, and with a fault of the form if it does not. -/
inductive Verdict (accepted : Prop) (result : α → Prop) : Except (Halt FormFault) α → Prop
  | accepts {value : α} (holds : accepted) (given : result value) :
      Verdict accepted result (.ok value)
  | rejects {fault : AnalysisFault} (fails : ¬ accepted) (ofForm : fault.IsOfForm) :
      Verdict accepted result (.error (.fault (.analysis fault)))

/-- What was accepted before is added to what is accepted now. -/
theorem Verdict.afterwards {accepted others : Prop} {result : α → Prop}
    {ending : Except (Halt FormFault) α} (accepts : accepted)
    (verdict : Verdict others result ending) : Verdict (accepted ∧ others) result ending := by
  cases verdict with
  | accepts holds given => exact .accepts ⟨accepts, holds⟩ given
  | rejects fails ofForm => exact .rejects (fun both => fails both.2) ofForm

/-- What taking instances of literals keeps. -/
structure Invariant where
  holds : Session → Prop
  interned {session : Session} {α : Type} (take : InternTable → Interned α × InternTable) :
    holds session → holds { session with interned := (take session.interned).2 }

/-- A step keeps an invariant, and where its ending is `certain` it decides whether something is
accepted. -/
def Decides (kept : Invariant) (certain accepted : Prop) (result : α → Prop)
    (step : InSession α) : Prop :=
  ∀ session, kept.holds session →
    kept.holds (step session).2 ∧ (certain → Verdict accepted result (step session).1)

/-- Nothing is said about a result. -/
def anything : α → Prop :=
  fun _ => True

section Rules

variable {kept : Invariant} {certain accepted others : Prop} {result : α → Prop}
  {answer : β → Prop}

/-- The rule for a step that only has a result. -/
theorem Decides.pure {value : α} (accepts : accepted) (given : certain → result value) :
    Decides kept certain accepted result (Pure.pure value) := by
  intro session holds
  exact ⟨holds, fun sure => .accepts accepts (given sure)⟩

/-- The rule for a step that fails: what it fails for must not be accepted. -/
theorem Decides.fail {fault : AnalysisFault} (ofForm : fault.IsOfForm)
    (fails : ¬ accepted) :
    Decides kept certain accepted result (Session.fail (.analysis fault)) := by
  intro session holds
  exact ⟨holds, fun _ => .rejects fails ofForm⟩

theorem Decides.reject (form : Form) (fault : ShapeFault) (fails : ¬ accepted) :
    Decides kept certain accepted result (Session.reject form fault) :=
  .fail trivial fails

theorem Decides.iffWhere {step : InSession α} (same : certain → (accepted ↔ others))
    (decides : Decides kept certain accepted result step) :
    Decides kept certain others result step := by
  intro session holds
  obtain ⟨keeps, verdict⟩ := decides session holds
  exact ⟨keeps, fun sure => propext (same sure) ▸ verdict sure⟩

/-- What is accepted may be said in other words. -/
theorem Decides.iff {step : InSession α} (same : accepted ↔ others)
    (decides : Decides kept certain accepted result step) :
    Decides kept certain others result step :=
  decides.iffWhere fun _ => same

/-- Less certainty asks for less. -/
theorem Decides.weaken {less : Prop} {step : InSession α} (surer : less → certain)
    (decides : Decides kept certain accepted result step) :
    Decides kept less accepted result step := by
  intro session holds
  obtain ⟨keeps, verdict⟩ := decides session holds
  exact ⟨keeps, fun sure => verdict (surer sure)⟩

/-- Two steps accept what both accept; the second one may use what is known of the result of the
first. -/
theorem Decides.bind {first : InSession α} {second : α → InSession β}
    (starts : Decides kept certain accepted result first)
    (goesOn : ∀ value, (certain → result value) →
      Decides kept certain others answer (second value)) :
    Decides kept certain (accepted ∧ others) answer (first >>= second) := by
  intro session holds
  obtain ⟨keeps, verdict⟩ := starts session holds
  rw [Stateful.bind_run]
  rcases outcome : first session with ⟨halt | value, after⟩
  · rw [outcome] at keeps verdict
    refine ⟨keeps, fun sure => ?_⟩
    cases verdict sure with
    | rejects fails ofForm => exact .rejects (fun both => fails both.1) ofForm
  · rw [outcome] at keeps verdict
    have given : certain → result value := by
      intro sure
      cases verdict sure with
      | accepts _ given => exact given
    obtain ⟨keepsAfter, verdictAfter⟩ := goesOn value given after keeps
    refine ⟨keepsAfter, fun sure => ?_⟩
    cases verdict sure with
    | accepts accepts _ => exact (verdictAfter sure).afterwards accepts

/-- After a step that accepts in any case, only what follows decides. -/
theorem Decides.after {first : InSession α} {second : α → InSession β}
    (starts : Decides kept certain True result first)
    (goesOn : ∀ value, (certain → result value) →
      Decides kept certain others answer (second value)) :
    Decides kept certain others answer (first >>= second) :=
  (starts.bind goesOn).iff (and_iff_right trivial)

/-- A step whose result is only made into another one. -/
theorem Decides.returning {first : InSession α} {f : α → β}
    (decides : Decides kept certain accepted result first)
    (given : certain → ∀ value, result value → answer (f value)) :
    Decides kept certain accepted answer (first >>= fun value => Pure.pure (f value)) := by
  refine .iff (and_iff_left trivial) (decides.bind fun value known => .pure trivial fun sure => ?_)
  exact given sure value (known sure)

/-- The same where nothing is said of the result. -/
theorem Decides.done {first : InSession α} {f : α → β}
    (decides : Decides kept certain accepted result first) :
    Decides kept certain accepted anything (first >>= fun value => Pure.pure (f value)) :=
  decides.returning fun _ _ _ => trivial

end Rules

end Session

end ScriptLisp
