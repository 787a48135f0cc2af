import ScriptLisp.Proofs.Analysis.Composition
import ScriptLisp.Proofs.Eval.Fuel
import ScriptLisp.Proofs.Session.Effect

/-!
Expansion and analysis with more fuel. Both spend their fuel on calls of macros and on going deeper
into forms, and neither looks at how much is left; so more fuel only lets them go on.

* `steady_callMacro`, `steady_expandOnce`, `steady_expand`: calls of macros and expansion.
* `approximates_of_composed`: whatever is composed of analyses.
* `steady_analyze`: analysis.
-/

namespace ScriptLisp

open Stateful (Approximates Steady)

/-! ### Expansion -/

namespace Session

/-- All the fuel of a call goes to the function of the macro. -/
theorem steady_callMacro (m : Macro) (args : List Form) : Steady (callMacro · m args) := by
  intro fuel session
  dsimp only
  rw [callMacro_run, callMacro_run]
  rcases Eval.steady_enter [] m.function (args.map Value.ofForm) fuel session.machine with
    out | same
  · refine .inl ?_
    dsimp only at out ⊢
    rw [out]
    rfl
  · refine .inr ?_
    dsimp only at same ⊢
    rw [same]

/-- Only the call of a macro takes fuel. -/
theorem steady_expandOnce (form : Form) : Steady (expandOnce · form) := by
  intro fuel
  dsimp only
  rw [expandOnce.eq_def, expandOnce.eq_def]
  split
  · refine .after fun session => ?_
    split
    · exact (steady_callMacro _ _ fuel).returning
    · exact .refl _
  · exact .refl _

/-- Each round of an expansion has less fuel than the one before, and more only lets it go on. -/
theorem steady_expandFurther (form : Form) : Steady (expandFurther · form) := by
  intro fuel
  induction fuel generalizing form with
  | zero => exact .outOfFuel _
  | succ fuel ih =>
    dsimp only
    rw [expandFurther, expandFurther]
    refine (steady_expandOnce form fuel).bind fun expanded => ?_
    cases expanded with
    | none => exact .refl _
    | some next => exact ih next

/-- A first step is followed by the rounds, for which the same holds. -/
theorem steady_expandUse (form : Form) : Steady (expandUse · form) := by
  intro fuel
  refine (steady_expandOnce form fuel).bind fun expanded => ?_
  cases expanded with
  | none => exact .refl _
  | some next => exact (steady_expandFurther next fuel).returning

theorem steady_expand (form : Form) : Steady (expand · form) :=
  fun fuel => (steady_expandUse form fuel).returning

end Session

namespace Analysis

open Session

/-- What is composed alike of analyses with less and with more fuel does the same with more. -/
theorem approximates_of_composed {less more : Step}
    (each : ∀ form, Approximates (less form) (more form)) {final : InternTable} {known : Prop}
    {α : Type} {result : α → Prop} {part other : InSession α}
    (composed : Composed less more final known result part other) : Approximates part other := by
  induction composed with
  | pure | throw | variableOf | intern | defineMacro => exact .refl _
  | bind _ _ starts goesOn => exact starts.bind goesOn
  | analysis form => exact each form

/-- An analysis goes deeper with less fuel for the forms inside. -/
theorem approximates_unexpanded {less more : Step}
    (each : ∀ form, Approximates (less form) (more form)) (form : Form) :
    Approximates (unexpanded less form) (unexpanded more form) := by
  have composed : Composed less more .empty True _ (unexpanded less form) (unexpanded more form) :=
    composed_unexpanded form
  exact approximates_of_composed each composed

/-- One more unit of fuel is one more for the expansion and for all the forms inside. -/
theorem approximates_analyze (fuel : Nat) (form : Form) :
    Approximates (analyze fuel form) (analyze (fuel + 1) form) := by
  induction fuel generalizing form with
  | zero => exact .outOfFuel _
  | succ fuel ih =>
    rw [analyze.eq_def, analyze.eq_def]
    refine (steady_expandUse form fuel).bind fun expanded => ?_
    split
    · exact ih _
    · exact approximates_unexpanded ih form

/-- Analysis does the same with more fuel, unless it ran out. -/
theorem steady_analyze (form : Form) : Steady (analyze · form) :=
  fun fuel => approximates_analyze fuel form

end Analysis

end ScriptLisp
