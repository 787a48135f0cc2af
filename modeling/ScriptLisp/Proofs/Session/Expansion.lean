import ScriptLisp.Proofs.Analysis.Fuel

/-!
Expansion reaches a fixed point, and analysis sees only that. Expansion calls macros until the head
of the form names none, however many calls that takes and whatever they do to the machine of the
session; it then stops with a form that it leaves alone, and analysis goes on with this form.

* `UsesMacro`: the head of a form names a macro.
* `expand_eq_expandFurther`: expansion, which tells the first call from the others, is one loop.
* `expandUse_ok`: a form that expansion ends with uses no macro.
* `expand_after_once`, `analyze_after_expansion`: one call first, or the whole expansion first.
* `expansion_fixed_point`: the laws of expansion.
-/

namespace ScriptLisp.Session

open Stateful (Ends Steady ends_iff_of_eventually)
open Analysis

/-- The head of a form names a macro. -/
def UsesMacro (registry : Registry) (form : Form) : Prop :=
  ∃ head m, form.head? = some head ∧ registry.find? head = some m

theorem unknown_of_not_usesMacro {registry : Registry} {form : Form}
    (plain : ¬ UsesMacro registry form) (head : String) (given : form.head? = some head) :
    registry.find? head = none := by
  cases found : registry.find? head with
  | none => rfl
  | some m => exact absurd ⟨head, m, given, found⟩ plain

/-! ### One call -/

/-- Expansion stops only at a form that uses no macro, and that call left the session as it was. -/
theorem expandOnce_none {fuel : Nat} {form : Form} {session after : Session}
    (stops : expandOnce fuel form session = (.ok none, after)) :
    ¬ UsesMacro session.registry form ∧ after = session := by
  rw [expandOnce.eq_def] at stops
  split at stops
  · rename_i head args
    rw [Stateful.get_bind_run] at stops
    cases found : session.registry.find? head with
    | none =>
      rw [found] at stops
      cases stops
      refine ⟨?_, rfl⟩
      rintro ⟨_, m, ⟨⟩, registered⟩
      rw [found] at registered
      cases registered
    | some m =>
      simp only [found] at stops
      rw [Stateful.bind_run] at stops
      split at stops
      · cases stops
      · cases stops
  · rename_i noUse
    cases stops
    refine ⟨?_, rfl⟩
    rintro ⟨head, m, given, -⟩
    unfold Form.head? at given
    split at given
    · exact noUse _ _ rfl
    · cases given

/-- Calls of macros define none. -/
theorem registry_keptByCalls (registry : Registry) :
    KeptByCalls fun session => session.registry = registry := by
  intro session fuel args m _ same
  rw [callMacro_run]
  exact same

/-! ### Whole expansions -/

/-- One call, and then the loop. -/
theorem expandUse_run (fuel : Nat) (form : Form) (session : Session) :
    expandUse fuel form session =
      match expandOnce fuel form session with
      | (.error halt, after) => (.error halt, after)
      | (.ok none, after) => (.ok none, after)
      | (.ok (some next), after) =>
        match expandFurther fuel next after with
        | (.error halt, last) => (.error halt, last)
        | (.ok expanded, last) => (.ok (some expanded), last) := by
  rw [expandUse, Stateful.bind_run]
  rcases expandOnce fuel form session with ⟨_ | _ | next, after⟩
  · rfl
  · rfl
  · dsimp only
    rw [Stateful.bind_run]
    rcases expandFurther fuel next after with ⟨_ | _, last⟩
    · rfl
    · rfl

theorem expandFurther_succ_run (fuel : Nat) (form : Form) (session : Session) :
    expandFurther (fuel + 1) form session =
      match expandOnce fuel form session with
      | (.error halt, after) => (.error halt, after)
      | (.ok none, after) => (.ok form, after)
      | (.ok (some next), after) => expandFurther fuel next after := by
  rw [expandFurther, Stateful.bind_run]
  rcases expandOnce fuel form session with ⟨_ | _ | next, after⟩
  · rfl
  · rfl
  · rfl

theorem expand_run (fuel : Nat) (form : Form) (session : Session) :
    expand fuel form session =
      match expandUse fuel form session with
      | (.error halt, after) => (.error halt, after)
      | (.ok expanded, after) => (.ok (expanded.getD form), after) := by
  rw [expand, Stateful.bind_run]
  rcases expandUse fuel form session with ⟨_ | _, after⟩
  · rfl
  · rfl

/-- Whether the first call counts as one of the loop makes no difference to the expansion. -/
theorem expand_eq_expandFurther (fuel : Nat) (form : Form) (session : Session) :
    expand fuel form session = expandFurther (fuel + 1) form session := by
  rw [expand_run, expandUse_run, expandFurther_succ_run]
  rcases expandOnce fuel form session with ⟨_ | _ | next, after⟩
  · rfl
  · rfl
  · dsimp only
    rcases expandFurther fuel next after with ⟨_ | _, last⟩
    · rfl
    · rfl

theorem expandUse_of_expand {fuel : Nat} {form result : Form} {session after : Session}
    (ends : expand fuel form session = (.ok result, after)) :
    ∃ expanded, expandUse fuel form session = (.ok expanded, after) ∧
      result = expanded.getD form := by
  rw [expand_run] at ends
  rcases used : expandUse fuel form session with ⟨_ | expanded, last⟩
  · rw [used] at ends
    cases ends
  · rw [used] at ends
    cases ends
    exact ⟨expanded, rfl, rfl⟩

/-- The loop ends with a form that uses no macro. -/
theorem expandFurther_ok {fuel : Nat} {form expanded : Form} {session after : Session}
    (ends : expandFurther fuel form session = (.ok expanded, after)) :
    ¬ UsesMacro session.registry expanded := by
  induction fuel generalizing form session with
  | zero => cases ends
  | succ fuel ih =>
    rw [expandFurther_succ_run] at ends
    -- The induction speaks of the macros behind the first call; these are the ones before it.
    have kept := (registry_keptByCalls session.registry).expandOnce fuel form rfl
    rcases once : expandOnce fuel form session with ⟨_ | _ | next, between⟩
    · rw [once] at ends
      cases ends
    · rw [once] at ends
      cases ends
      exact (expandOnce_none once).1
    · rw [once] at ends kept
      have plain := ih ends
      rwa [kept] at plain

/-- What expansion ends with uses no macro. If there was nothing to expand, nothing was done. -/
theorem expandUse_ok {fuel : Nat} {form : Form} {session after : Session} {expanded : Option Form}
    (ends : expandUse fuel form session = (.ok expanded, after)) :
    ¬ UsesMacro session.registry (expanded.getD form) ∧ (expanded = none → after = session) := by
  cases expanded with
  | some expanded =>
    have whole : expandFurther (fuel + 1) form session = (.ok expanded, after) := by
      rw [← expand_eq_expandFurther, expand_run, ends]
      rfl
    exact ⟨expandFurther_ok whole, nofun⟩
  | none =>
    rw [expandUse_run] at ends
    rcases once : expandOnce fuel form session with ⟨_ | _ | next, between⟩
    · rw [once] at ends
      cases ends
    · rw [once] at ends
      cases ends
      obtain ⟨plain, same⟩ := expandOnce_none once
      exact ⟨plain, fun _ => same⟩
    · simp only [once] at ends
      rcases further : expandFurther fuel next between with ⟨_ | _, last⟩
      · rw [further] at ends
        cases ends
      · rw [further] at ends
        cases ends

/-- The expansion of a form that uses a macro goes on from the first call. -/
theorem expand_after_once {few fuel : Nat} {form next : Form} {session after : Session}
    (once : expandOnce few form session = (.ok (some next), after)) (most : few ≤ fuel) :
    expand (fuel + 1) form session = expand fuel next after := by
  have more : expandOnce (fuel + 1) form session = (.ok (some next), after) :=
    (steady_expandOnce form).run_ok (Nat.le_succ_of_le most) once
  rw [expand_eq_expandFurther, expandFurther_succ_run, more, expand_eq_expandFurther]

/-- The analysis of a form that uses a macro goes on with what it expands to. -/
theorem analyze_after_expansion {few fuel : Nat} {form expanded : Form} {session after : Session}
    (expands : expandUse few form session = (.ok (some expanded), after)) (most : few ≤ fuel) :
    analyze (fuel + 1) form session = analyze fuel expanded after := by
  have more : expandUse fuel form session = (.ok (some expanded), after) :=
    (steady_expandUse form).run_ok most expands
  rw [analyze_run, more]

/-! ### Laws -/

/-- If the expansion of a form ends with a form, then this uses no macro, and expanding it again
gives it back and does nothing. A form that uses no macro is its own expansion, and otherwise the
expansion goes on from the first call. Analysis of the form ends as analysis of what it expands to,
in the session that the expansion left. -/
theorem expansion_fixed_point {form result : Form} {session after : Session}
    (expands : Ends (expand · form) session (.ok result) after) :
    after.registry = session.registry ∧ ¬ UsesMacro after.registry result ∧
      (∀ fuel, expand (fuel + 1) result after = (.ok result, after)) ∧
      (∀ next between, Ends (expandOnce · form) session (.ok (some next)) between →
        ∀ ending last, Ends (expand · form) session ending last ↔
          Ends (expand · next) between ending last) ∧
      (¬ UsesMacro session.registry form → result = form ∧ after = session) ∧
      ∀ ending last, Ends (analyze · form) session ending last ↔
        Ends (analyze · result) after ending last := by
  obtain ⟨few, ends⟩ := expands
  obtain ⟨expanded, used, rfl⟩ := expandUse_of_expand ends
  obtain ⟨plain, unchanged⟩ := expandUse_ok used
  have registry : after.registry = session.registry := by
    have kept := (registry_keptByCalls session.registry).expandUse few form rfl
    rwa [used] at kept
  rw [← registry] at plain
  refine ⟨registry, plain, fun fuel => ?_, fun next between once => ?_, fun plainForm => ?_, ?_⟩
  · rw [expand_run, expandUse_of_unknown_head (fuel + 1) (unknown_of_not_usesMacro plain)]
    rfl
  -- The two sides differ by the fuel of the first call only.
  · obtain ⟨calls, once⟩ := once
    exact ends_iff_of_eventually (steady_expand form) (steady_expand next)
      fun fuel most => expand_after_once once most
  · rw [expandUse_of_unknown_head few (unknown_of_not_usesMacro plainForm)] at used
    cases used
    exact ⟨rfl, rfl⟩
  · cases expanded with
    | none =>
      rw [unchanged rfl]
      exact fun _ _ => Iff.rfl
    | some result =>
      exact ends_iff_of_eventually (steady_analyze form) (steady_analyze result)
        fun fuel most => analyze_after_expansion used most

/-- A session with a macro `outer` that expands to `(inner)`, which defines a variable when it is
called and expands to `1`. -/
def chained : Session where
  target := .javascript
  interned := .empty
  registry :=
    [⟨"outer", "", .single (.mk ⟨[], none⟩ [.list [.symbol ⟨0, ⟨none, "inner"⟩⟩]])⟩,
      ⟨"inner", "", .single (.mk ⟨[], none⟩
        [.definition ⟨none, "called"⟩ (.nil ⟨0, ()⟩), .integer ⟨0, 1⟩])⟩]
  machine := ⟨[], 0, 0⟩

/-- The session after both were called. -/
def bothCalled : Session :=
  { chained with machine := ⟨[(⟨none, "called"⟩, .nil)], 0, 0⟩ }

theorem expansion_fixed_point_chained :
    Ends (expand · (.list [.symbol "outer"])) chained (.ok (.integer 1)) bothCalled ∧
      ∀ ending last, Ends (analyze · (.list [.symbol "outer"])) chained ending last ↔
        Ends (analyze · (.integer 1)) bothCalled ending last := by
  have expands : Ends (expand · (.list [.symbol "outer"])) chained (.ok (.integer 1))
      bothCalled := ⟨5, rfl⟩
  exact ⟨expands, (expansion_fixed_point expands).2.2.2.2.2⟩

end ScriptLisp.Session
