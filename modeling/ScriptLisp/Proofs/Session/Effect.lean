import ScriptLisp.Session.Compile
import ScriptLisp.Proofs.Analysis.MacroDefinition
import Mathlib.Logic.Relation

/-!
What steps do to a session. Whatever a step is for, and however it ends, it changes its session in
three ways only: it takes instances of literals, calls macros of the session, and defines macros
that were checked. What these three keep, every step keeps.

* `Effect`: one of the three changes.
* `Follows`: a step that makes such changes only.
* `KeptByCalls`: what calls of macros keep, expansion keeps.
* `follows_expand`, `follows_analyze`, `effects_compile`: all that a session is used for.
-/

namespace ScriptLisp.Session

/-- A change that a step makes to its session. -/
inductive Effect (session : Session) : Session → Prop
  | interned {α : Type} (take : InternTable → Interned α × InternTable) :
      Effect session { session with interned := (take session.interned).2 }
  | called (fuel : Nat) {m : Macro} (registered : m ∈ session.registry) (args : List Form) :
      Effect session (callMacro fuel m args session).2
  | defined (name : String) {function : Lambda} {source : String}
      (generated : session.target.generateLambda function = .ok source)
      (passes : Eval.uncoveredInLambda? function = none) :
      Effect session { session with registry := session.registry.define ⟨name, source, function⟩ }

/-- Changes one after the other. -/
abbrev Effects : Session → Session → Prop :=
  Relation.ReflTransGen Effect

variable {α β : Type}

/-- A step changes any session by effects only, however it ends. -/
def Follows (step : InSession α) : Prop :=
  ∀ session, Effects session (step session).2

/-! ### Rules for steps -/

theorem Follows.pure (result : α) : Follows (Pure.pure result) :=
  fun _ => .refl

theorem Follows.throw (halt : Halt FormFault) : Follows (MonadExcept.throw halt : InSession α) :=
  fun _ => .refl

theorem Follows.get : Follows (MonadState.get : InSession Session) :=
  fun _ => .refl

/-- A step whose effects are known, and after it any step that has effects only. -/
theorem effects_bind {first : InSession α} {second : α → InSession β} {session : Session}
    (start : Effects session (first session).2) (goesOn : ∀ result, Follows (second result)) :
    Effects session ((first >>= second) session).2 := by
  rw [Stateful.bind_run]
  rcases outcome : first session with ⟨halt | result, after⟩
  · rw [outcome] at start
    exact start
  · rw [outcome] at start
    exact start.trans (goesOn result after)

/-- The rule for steps one after the other. -/
theorem Follows.bind {first : InSession α} {second : α → InSession β} (starts : Follows first)
    (goesOn : ∀ result, Follows (second result)) : Follows (first >>= second) :=
  fun session => effects_bind (starts session) goesOn

/-! ### Macros -/

/-- On the machine of a session: nothing else of the session changes. -/
theorem onMachine_run {α : Type} (evaluation : Eval.Evaluation α) (session : Session) :
    onMachine evaluation session =
      (.ok (evaluation session.machine).1,
        { session with machine := (evaluation session.machine).2 }) :=
  rfl

/-- What a call of a macro gives, by what the call of its function gives. -/
def expansionOf (m : Macro) : Except (Halt Eval.Fault) Value → Except (Halt FormFault) Form
  | .ok value =>
    match value.toForm? with
    | some form => .ok form
    | none => .error (.fault (.expansion (.notAForm m.name)))
  | .error (.fault reason) => .error (.fault (.expansion (.invocation m.name reason)))
  | .error .outOfFuel => .error .outOfFuel

/-- A call of a macro is a call of its function on the machine of the session. -/
theorem callMacro_run (fuel : Nat) (m : Macro) (args : List Form) (session : Session) :
    callMacro fuel m args session =
      let call := Eval.enter fuel m.function [] (args.map Value.ofForm) session.machine
      (expansionOf m call.1, { session with machine := call.2 }) := by
  rw [callMacro, Stateful.bind_run, onMachine_run]
  rcases Eval.enter fuel m.function [] (args.map Value.ofForm) session.machine with
    ⟨(reason | _) | value, after⟩
  · rfl
  · rfl
  · simp only [expansionOf]
    cases value.toForm? with
    | none => rfl
    | some form => rfl

/-- A fault that is reported with a macro's name is the fault of its call. -/
theorem eq_of_expansionOf {m : Macro} {ending : Except (Halt Eval.Fault) Value} {name : String}
    {reason : Eval.Fault}
    (failed : expansionOf m ending = .error (.fault (.expansion (.invocation name reason)))) :
    ending = .error (.fault reason) := by
  rcases ending with (met | _) | value
  · cases failed
    rfl
  · cases failed
  · rw [expansionOf] at failed
    split at failed
    · cases failed
    · cases failed

/-- Calls of the macros of a session keep a property of it. -/
def KeptByCalls (holds : Session → Prop) : Prop :=
  ∀ session fuel (args : List Form), ∀ m ∈ session.registry,
    holds session → holds (callMacro fuel m args session).2

variable {holds : Session → Prop} {session : Session}

/-- Expanding once calls at most one macro, and that one is registered. -/
theorem KeptByCalls.expandOnce (kept : KeptByCalls holds) (fuel : Nat) (form : Form)
    (held : holds session) : holds (Session.expandOnce fuel form session).2 := by
  rw [Session.expandOnce.eq_def]
  split
  · rename_i head args
    rw [Stateful.get_bind_run]
    cases found : session.registry.find? head with
    | none => exact held
    | some m =>
      have called := kept session fuel args m (List.mem_of_find?_eq_some found) held
      dsimp only
      rw [Stateful.bind_run]
      rcases outcome : callMacro fuel m args session with ⟨_ | _, after⟩
      · rw [outcome] at called
        exact called
      · rw [outcome] at called
        exact called
  · exact held

/-- By induction on the fuel: each round is one expansion in the session that the last one left. -/
theorem KeptByCalls.expandFurther (kept : KeptByCalls holds) (fuel : Nat) (form : Form)
    (held : holds session) : holds (Session.expandFurther fuel form session).2 := by
  induction fuel generalizing form session with
  | zero => exact held
  | succ fuel ih =>
    have once := kept.expandOnce fuel form held
    rw [Session.expandFurther, Stateful.bind_run]
    rcases outcome : Session.expandOnce fuel form session with ⟨_ | _ | next, after⟩
    · rw [outcome] at once
      exact once
    · rw [outcome] at once
      exact once
    · rw [outcome] at once
      exact ih next once

/-- A use of a macro is expanded once and then further. -/
theorem KeptByCalls.expandUse (kept : KeptByCalls holds) (fuel : Nat) (form : Form)
    (held : holds session) : holds (Session.expandUse fuel form session).2 := by
  have once := kept.expandOnce fuel form held
  rw [Session.expandUse, Stateful.bind_run]
  rcases outcome : Session.expandOnce fuel form session with ⟨_ | _ | next, after⟩
  · rw [outcome] at once
    exact once
  · rw [outcome] at once
    exact once
  · rw [outcome] at once
    have further := kept.expandFurther fuel next once
    dsimp only
    rw [Stateful.bind_run]
    rcases ending : Session.expandFurther fuel next after with ⟨_ | _, last⟩
    · rw [ending] at further
      exact further
    · rw [ending] at further
      exact further

/-- A call of a registered macro is one more effect. -/
theorem effects_keptByCalls (start : Session) : KeptByCalls (Effects start) :=
  fun _ fuel args _ registered effects => effects.tail (.called fuel registered args)

theorem follows_expandOnce (fuel : Nat) (form : Form) : Follows (expandOnce fuel form) :=
  fun session => (effects_keptByCalls session).expandOnce fuel form .refl

theorem follows_expandUse (fuel : Nat) (form : Form) : Follows (expandUse fuel form) :=
  fun session => (effects_keptByCalls session).expandUse fuel form .refl

theorem follows_expand (fuel : Nat) (form : Form) : Follows (expand fuel form) :=
  .bind (follows_expandUse fuel form) fun _ => .pure _

theorem follows_defineMacro (name : Name) (function : Lambda) :
    Follows (defineMacro name function) := by
  intro session
  rcases defineMacro_cases name function session with
    ⟨reason, failed⟩ | ⟨source, generated, passes, registered⟩
  · rw [failed]
  · rw [registered]
    exact .single (.defined name.display generated passes)

/-! ### Analysis -/

/-- The sessions that effects lead to, as what the steps of an analysis keep. -/
def effectsFrom (start : Session) : Invariant where
  holds := Effects start
  interned take effects := effects.tail (.interned take)

/-- By induction on the fuel: analysis has effects by expansion, by taking literals and by macro
definitions. -/
theorem effects_analyze {start session : Session} (fuel : Nat) (form : Form)
    (effects : Effects start session) : Effects start (Analysis.analyze fuel form session).2 := by
  induction fuel generalizing form session with
  | zero => exact effects
  | succ fuel ih =>
    have each : Analysis.DecidesEach (effectsFrom start) False (Analysis.analyze fuel)
        form.codeParts := by
      intro part _ session effects
      exact ⟨ih part effects, False.elim⟩
    have expanded := (effects_keptByCalls start).expandUse fuel form effects
    rw [Analysis.analyze_run]
    rcases outcome : expandUse fuel form session with ⟨_ | _ | next, after⟩
    · rw [outcome] at expanded
      exact expanded
    · rw [outcome] at expanded
      rcases Analysis.unexpanded_cases form each expanded with
        keeps | ⟨name, _, _, function, source, before, reached, defines, ends⟩
      · exact keeps
      · have defined := follows_defineMacro (Name.parse name) function before
        rw [defines] at defined
        dsimp only at ends ⊢
        rw [ends]
        exact reached.trans defined
    · rw [outcome] at expanded
      exact ih next expanded

theorem follows_analyze (fuel : Nat) (form : Form) : Follows (Analysis.analyze fuel form) :=
  fun _ => effects_analyze fuel form .refl

/-! ### Compilation -/

theorem follows_compileForm (fuel : Nat) (form : Form) : Follows (compileForm fuel form) := by
  refine .bind (follows_analyze fuel form) fun node => .bind .get fun session => ?_
  split
  · exact .pure _
  · exact .throw _

theorem follows_compileForms (fuel : Nat) (forms : List Form) :
    Follows (compileForms fuel forms) := by
  induction forms with
  | nil => exact .pure _
  | cons form rest ih =>
    exact .bind (follows_compileForm fuel form) fun _ => .bind ih fun _ => .pure _

/-- Compiling a text changes a session by effects only, however it ends. -/
theorem effects_compile (fuel : Nat) (text : String) (session : Session) :
    Effects session (session.compile fuel text).2 := by
  rw [compile]
  split
  · exact .refl
  · rename_i forms _
    have follows := follows_compileForms fuel forms session
    rcases outcome : compileForms fuel forms session with ⟨(fault | _) | output, after⟩
    all_goals
      rw [outcome] at follows
      exact follows

end ScriptLisp.Session
