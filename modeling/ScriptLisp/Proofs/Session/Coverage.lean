import ScriptLisp.Proofs.Eval.Coverage
import ScriptLisp.Proofs.Session.Effect

/-!
Macros never meet a construct without a meaning at compile time. A macro is checked when it is
defined; the machine that all macros share holds only closures of checked functions at the start,
and every effect on a session keeps it so.

* `Secure`: the functions of the macros and all closures on the machine are checked.
* `Effect.secure`, `Reachable.secure`: one effect, and every session that is ever reached.
* `macro_calls_supported`: calls of macros, and calls of checked functions on any machine.
-/

namespace ScriptLisp.Session

/-! ### Secure sessions -/

/-- All functions that macros of a session can come to call passed the check. -/
structure Secure (session : Session) : Prop where
  registry : ∀ m ∈ session.registry, Eval.uncoveredInLambda? m.function = none
  globals : Eval.coverage.Binds session.machine.globals

theorem binds_new (target : Target) : Eval.coverage.Binds (Eval.Machine.new target).globals :=
  Eval.Discipline.binds_new target

theorem secure_new (target : Target) : Secure (.new target) where
  registry _ member := absurd member List.not_mem_nil
  globals := binds_new target

/-- The call of a checked function with forms keeps a machine covered. -/
theorem keeps_enter (fuel : Nat) {function : Lambda} (args : List Form)
    (passes : Eval.uncoveredInLambda? function = none) :
    Eval.coverage.Keeps (Eval.enter fuel function [] (args.map Value.ofForm)) := by
  refine Eval.Discipline.keeps_enter fuel passes ?_ ?_
  · exact fun _ member => absurd member List.not_mem_nil
  · exact List.forall_mem_map.mpr fun _ _ => Eval.Discipline.holds_ofForm fun _ _ _ => trivial

/-! ### What keeps a session secure -/

theorem Effect.secure {session after : Session} (effect : Effect session after)
    (secure : Secure session) : Secure after := by
  cases effect with
  | interned take => exact ⟨secure.registry, secure.globals⟩
  | called fuel registered args =>
    rw [callMacro_run]
    refine ⟨secure.registry, ?_⟩
    exact (keeps_enter fuel args (secure.registry _ registered) session.machine secure.globals).2
  | defined name generated passes =>
    refine ⟨List.forall_mem_cons.mpr ⟨passes, ?_⟩, secure.globals⟩
    exact fun m member => secure.registry m (List.mem_filter.mp member).1

theorem Effects.secure {session after : Session} (effects : Effects session after)
    (secure : Secure session) : Secure after := by
  induction effects with
  | refl => exact secure
  | tail _ last ih => exact last.secure ih

/-- The sessions that any sequence of compilations, expansions and calls of macros leads to. -/
inductive Reachable (target : Target) : Session → Prop
  | start : Reachable target (.new target)
  | compiled {session : Session} (reached : Reachable target session) (fuel : Nat)
      (text : String) : Reachable target (session.compile fuel text).2
  | expanded {session : Session} (reached : Reachable target session) (fuel : Nat)
      (form : Form) : Reachable target (expand fuel form session).2
  | expandedOnce {session : Session} (reached : Reachable target session) (fuel : Nat)
      (form : Form) : Reachable target (expandOnce fuel form session).2
  | called {session : Session} (reached : Reachable target session) (fuel : Nat) {m : Macro}
      (registered : m ∈ session.registry) (args : List Form) :
      Reachable target (callMacro fuel m args session).2

theorem Reachable.secure {target : Target} {session : Session}
    (reached : Reachable target session) : Secure session := by
  induction reached with
  | start => exact secure_new target
  | compiled _ fuel text ih => exact (effects_compile fuel text _).secure ih
  | expanded _ fuel form ih => exact (follows_expand fuel form _).secure ih
  | expandedOnce _ fuel form ih => exact (follows_expandOnce fuel form _).secure ih
  | called _ fuel registered args ih => exact (Effect.called fuel registered args).secure ih

/-- The check of macros is complete. In every session that is ever reached, no call of a macro
fails for a construct or an operator without a meaning at compile time. The same is true of every
call of a checked function on a machine, under bindings and with arguments whose closures are
checked; and then the closures of the machine, the value and the thrown value are checked again. -/
theorem macro_calls_supported :
    (∀ target session, Reachable target session → ∀ m ∈ session.registry,
      ∀ fuel args name reason,
        (callMacro fuel m args session).1 =
          .error (.fault (.expansion (.invocation name reason))) → ¬ reason.IsUnsupported) ∧
    ∀ (fuel : Nat) (function : Lambda) (environment : Environment) (args : List Value)
      (machine : Eval.Machine),
      Eval.uncoveredInLambda? function = none →
      (∀ binding ∈ machine.globals, Eval.Covered binding.2) →
      (∀ binding ∈ environment, Eval.Covered binding.2) →
      (∀ arg ∈ args, Eval.Covered arg) →
      ∀ ending after, Eval.enter fuel function environment args machine = (ending, after) →
        (∀ reason, ending = .error (.fault reason) →
          ¬ reason.IsUnsupported ∧ ∀ thrown, reason = .thrown thrown → Eval.Covered thrown) ∧
        (∀ value, ending = .ok value → Eval.Covered value) ∧
        ∀ binding ∈ after.globals, Eval.Covered binding.2 := by
  constructor
  · intro target session reached m registered fuel args name reason failed
    -- A fault under the name of a macro is that of its function, which was checked at its
    -- definition.
    have secure := reached.secure
    have passes := secure.registry m registered
    have ends := (keeps_enter fuel args passes session.machine secure.globals).1
    rw [callMacro_run] at failed
    rw [eq_of_expansionOf failed] at ends
    exact ends.1
  · intro fuel function environment args machine passes globals bound holds ending after run
    simp only [← Eval.holds_coverage_iff] at globals bound holds ⊢
    have keeps := Eval.Discipline.keeps_enter fuel passes bound holds machine globals
    rw [run] at keeps
    refine ⟨?_, ?_, keeps.2⟩
    · rintro reason rfl
      exact keeps.1
    · rintro value rfl
      exact keeps.1

/-- A session with a macro that throws whatever it is given. -/
def throwingSession : Session :=
  ((Session.new .javascript).compile 9 "(defmacro fling [x] (throw x))").2

/-- A function that calls its argument with itself. -/
def selfCaller : Lambda :=
  .single (.mk ⟨[⟨none, "f"⟩], none⟩
    [.application (.reference ⟨none, "f"⟩) [.reference ⟨none, "f"⟩] true])

/-- The macro that throws never fails for a construct, nor does the function that calls itself. -/
theorem macro_calls_supported_throwing :
    throwingSession.registry.map (·.name) = ["fling"] ∧
    (∀ m ∈ throwingSession.registry, ∀ name reason,
      (callMacro 9 m [.symbol "y"] throwingSession).1 =
        .error (.fault (.expansion (.invocation name reason))) → ¬ reason.IsUnsupported) ∧
    Eval.uncoveredInLambda? selfCaller = none ∧
    ∀ reason after,
      Eval.enter 9 selfCaller [] [.closure 0 selfCaller []] (.new .javascript) =
        (.error (.fault reason), after) → ¬ reason.IsUnsupported := by
  have reached : Reachable .javascript throwingSession := .compiled .start 9 _
  have closure : Eval.Covered (.closure 0 selfCaller []) :=
    Eval.holds_coverage_iff.mp (Value.throughout_closure.mpr
      ⟨rfl, fun _ member => absurd member List.not_mem_nil⟩)
  refine ⟨by decide +kernel, ?_, rfl, ?_⟩
  · exact fun m registered => macro_calls_supported.1 _ _ reached m registered 9 _
  · intro reason after run
    refine (macro_calls_supported.2 9 selfCaller [] _ _ rfl ?_ ?_ ?_ _ _ run).1 reason rfl |>.1
    · exact fun binding member => Eval.holds_coverage_iff.mp (binds_new .javascript binding member)
    · exact fun _ member => absurd member List.not_mem_nil
    · exact List.forall_mem_singleton.mpr closure

end ScriptLisp.Session
