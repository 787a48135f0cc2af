import ScriptLisp.Proofs.Analysis.Acceptance

/-!
Definitions of macros. A definition registers its macro as the last thing it does, so it succeeds
then, and one that fails has registered nothing.

* `Registers`: how a definition that registers its macro ends.
* `macroDefinition_cases`, `unexpanded_cases`: all else keeps what the code inside it keeps.
-/

namespace ScriptLisp.Session

/-- The session after a macro was registered. -/
def withMacro (session : Session) (name : Name) (source : String) (function : Lambda) : Session :=
  { session with registry := session.registry.define ⟨name.display, source, function⟩ }

/-- A macro is registered once it was checked, or there is a reason why not and nothing is. -/
theorem defineMacro_cases (name : Name) (function : Lambda) (session : Session) :
    (∃ reason, defineMacro name function session = (.error reason, session)) ∨
      ∃ source, session.target.generateLambda function = .ok source ∧
        Eval.uncoveredInLambda? function = none ∧
        defineMacro name function session = (.ok (), session.withMacro name source function) := by
  rw [defineMacro, Stateful.get_bind_run]
  cases generated : session.target.generateLambda function with
  | error fault => exact .inl ⟨_, rfl⟩
  | ok source =>
    cases passes : Eval.uncoveredInLambda? function with
    | some construct => exact .inl ⟨_, rfl⟩
    | none => exact .inr ⟨source, rfl, rfl, rfl⟩

end ScriptLisp.Session

namespace ScriptLisp.Analysis

open Session Grammar

/-- An ending with a macro that was registered last, in a session that holds an invariant. -/
inductive Registers (kept : Invariant) (name : String)
    (ending : Except (Halt FormFault) Node × Session) : Prop
  | mk (function : Lambda) (source : String) (before : Session) (holds : kept.holds before)
      (defines : defineMacro (Name.parse name) function before =
        (.ok (), before.withMacro (Name.parse name) source function))
      (ends : ending = (.ok (.macroDefinition (Name.parse name) function),
        before.withMacro (Name.parse name) source function))

variable {kept : Invariant} {step : Step} {session : Session} (form : Form)

theorem macroDefinition_cases
    (each : DecidesEach kept False step (codeOperands .macroDefinition form.operands))
    (holds : kept.holds session) :
    kept.holds (macroDefinition step form session).2 ∨
      ∃ name definition, form.operands = .symbol name :: definition ∧
        Registers kept name (macroDefinition step form session) := by
  rw [macroDefinition.eq_def]
  generalize form.operands = operands at each ⊢
  split
  · rename_i name first rest
    obtain ⟨understood, _⟩ := decides_function form (first :: rest) each session holds
    rw [Stateful.bind_run]
    rcases outcome : function step form (first :: rest) session with ⟨_ | function, before⟩
    · rw [outcome] at understood
      exact .inl understood
    · rw [outcome] at understood
      dsimp only
      rw [Stateful.bind_run]
      rcases defineMacro_cases (Name.parse name) function before with
        ⟨reason, failed⟩ | ⟨source, -, -, registered⟩
      · rw [failed]
        exact .inl understood
      · rw [registered]
        exact .inr ⟨name, first :: rest, rfl, function, source, before, understood, registered, rfl⟩
  · exact .inl holds

/-- A form whose head names no macro keeps what the code inside it keeps, or it is a definition that
registers its macro. -/
theorem unexpanded_cases (each : DecidesEach kept False step form.codeParts)
    (holds : kept.holds session) :
    kept.holds (unexpanded step form session).2 ∨
      ∃ name definition, form = .list (.symbol "defmacro" :: .symbol name :: definition) ∧
        Registers kept name (unexpanded step form session) := by
  by_cases defines : form.head? = some "defmacro"
  · obtain ⟨operands, rfl⟩ : ∃ operands, form = .list (.symbol "defmacro" :: operands) := by
      unfold Form.head? at defines
      split at defines
      · cases defines
        exact ⟨_, rfl⟩
      · cases defines
    rcases macroDefinition_cases (.list (.symbol "defmacro" :: operands)) each holds with
      keeps | ⟨name, definition, shape, registers⟩
    · exact .inl keeps
    · cases shape
      exact .inr ⟨name, definition, rfl, registers⟩
  · exact .inl (decides_unexpanded defines each session holds).1

end ScriptLisp.Analysis
