import ScriptLisp.Eval.Machine

/-!
Computations with a state that outlives a failure, such as evaluations on a machine and steps of a
session, with an amount of fuel as a bound.

A sequence of two computations does to the state what the first does, and then what the second does
to the state that the first left, unless the first failed. Fuel is a bound and nothing else: a
computation with more fuel does what it did with less, unless it ran out then; so how it ends does
not depend on the amount, as long as there is enough.

* `bind_run`: what a sequence does to a state.
* `Approximates`: a computation that does what another one does until it runs out of fuel, with a
  rule for each way to build one.
* `Steady`: a computation that more fuel does not change.
* `Ends`, `Ends.unique`: how a computation ends with enough fuel, which is in one way at most.
* `Ends.bind`: a computation that is built of two ends as the second does after the first.
* `ends_iff_of_eventually`: computations that do the same from some amount on end in the same way.
-/

namespace ScriptLisp.Stateful

variable {ε σ α β : Type}

theorem bind_run (first : ExceptT ε (StateM σ) α) (next : α → ExceptT ε (StateM σ) β) (state : σ) :
    (first >>= next) state =
      match first state with
      | (.ok value, after) => next value after
      | (.error reason, after) => (.error reason, after) := by
  change (match first state with | (ending, after) => ExceptT.bindCont next ending after) = _
  rcases first state with ⟨_ | _, _⟩
  · rfl
  · rfl

theorem get_bind_run (next : σ → ExceptT ε (StateM σ) α) (state : σ) :
    ((MonadState.get : ExceptT ε (StateM σ) σ) >>= next) state = next state state :=
  rfl

/-! ### Less and more fuel -/

/-- From every state the first computation runs out of fuel or does what the second one does. -/
def Approximates (less more : ExceptT (Halt ε) (StateM σ) α) : Prop :=
  ∀ state, (less state).1 = .error .outOfFuel ∨ less state = more state

namespace Approximates

variable {less more : ExceptT (Halt ε) (StateM σ) α}

theorem refl (computation : ExceptT (Halt ε) (StateM σ) α) :
    Approximates computation computation :=
  fun _ => .inr rfl

theorem outOfFuel (more : ExceptT (Halt ε) (StateM σ) α) :
    Approximates (throw .outOfFuel) more :=
  fun _ => .inl rfl

theorem trans {most : ExceptT (Halt ε) (StateM σ) α} (first : Approximates less more)
    (second : Approximates more most) : Approximates less most := by
  intro state
  rcases first state with out | same
  · exact .inl out
  · rw [same]
    exact second state

theorem bind {next nextMore : α → ExceptT (Halt ε) (StateM σ) β} (starts : Approximates less more)
    (goesOn : ∀ value, Approximates (next value) (nextMore value)) :
    Approximates (less >>= next) (more >>= nextMore) := by
  intro state
  rw [bind_run, bind_run]
  rcases starts state with out | same
  · refine .inl ?_
    rcases ended : less state with ⟨halt | value, after⟩
    · rw [ended] at out
      cases out
      rfl
    · rw [ended] at out
      cases out
  · rw [← same]
    rcases less state with ⟨halt | value, after⟩
    · exact .inr rfl
    · exact goesOn value after

/-- What is made of a result needs no fuel. -/
theorem returning {f : α → ExceptT (Halt ε) (StateM σ) β} (starts : Approximates less more) :
    Approximates (less >>= f) (more >>= f) :=
  starts.bind fun value => refl (f value)

/-- What is done after a computation that needs no fuel. -/
theorem after {start : ExceptT (Halt ε) (StateM σ) α}
    {next nextMore : α → ExceptT (Halt ε) (StateM σ) β}
    (goesOn : ∀ value, Approximates (next value) (nextMore value)) :
    Approximates (start >>= next) (start >>= nextMore) :=
  (refl start).bind goesOn

end Approximates

/-! ### Enough fuel -/

section Steady

/-- One more unit of fuel changes nothing but that a computation may go on. -/
def Steady (computation : Nat → ExceptT (Halt ε) (StateM σ) α) : Prop :=
  ∀ fuel, Approximates (computation fuel) (computation (fuel + 1))

/-- With enough fuel a computation ends with this result or fault, and leaves this state. -/
def Ends (computation : Nat → ExceptT (Halt ε) (StateM σ) α) (state : σ) (ending : Except ε α)
    (after : σ) : Prop :=
  ∃ fuel, computation fuel state = (ending.mapError .fault, after)

variable {computation other : Nat → ExceptT (Halt ε) (StateM σ) α}

theorem Steady.approximates (steady : Steady computation) {few many : Nat} (most : few ≤ many) :
    Approximates (computation few) (computation many) := by
  induction most with
  | refl => exact .refl _
  | step _ ih => exact ih.trans (steady _)

theorem mapError_ne_outOfFuel (ending : Except ε α) :
    ending.mapError Halt.fault ≠ .error .outOfFuel := by
  cases ending with
  | ok => exact nofun
  | error => exact nofun

/-- A computation that ended does the same with more fuel. -/
theorem Steady.run_eq (steady : Steady computation) {few many : Nat} (most : few ≤ many)
    {state after : σ} {ending : Except ε α}
    (ended : computation few state = (ending.mapError .fault, after)) :
    computation many state = (ending.mapError .fault, after) := by
  rcases steady.approximates most state with out | same
  · rw [ended] at out
    exact absurd out (mapError_ne_outOfFuel ending)
  · rw [← same, ended]

theorem Steady.run_ok (steady : Steady computation) {few many : Nat} (most : few ≤ many)
    {state after : σ} {value : α} (ended : computation few state = (.ok value, after)) :
    computation many state = (.ok value, after) := by
  have result : computation few state = ((.ok value : Except ε α).mapError .fault, after) := ended
  exact steady.run_eq most result

/-- There is one way at most for a computation to end. -/
theorem Ends.unique (steady : Steady computation) {state first second : σ}
    {ending another : Except ε α} (one : Ends computation state ending first)
    (two : Ends computation state another second) : ending = another ∧ first = second := by
  obtain ⟨few, one⟩ := one
  obtain ⟨many, two⟩ := two
  have same := (steady.run_eq (Nat.le_max_left few many) one).symm.trans
    (steady.run_eq (Nat.le_max_right few many) two)
  obtain ⟨endings, states⟩ := Prod.mk.inj same
  refine ⟨?_, states⟩
  cases ending <;> cases another <;> cases endings <;> rfl

theorem Steady.const (computation : ExceptT (Halt ε) (StateM σ) α) :
    Steady fun _ => computation :=
  fun _ => .refl computation

theorem Ends.of_succ {state after : σ} {ending : Except ε α}
    (ends : Ends (fun fuel => computation (fuel + 1)) state ending after) :
    Ends computation state ending after := by
  obtain ⟨fuel, ended⟩ := ends
  exact ⟨fuel + 1, ended⟩

/-- A computation goes on from the result and the state that its first part ends with. -/
theorem Ends.bind {next : Nat → α → ExceptT (Halt ε) (StateM σ) β} {state between after : σ}
    {value : α} {ending : Except ε β} (steady : Steady computation)
    (steadyNext : Steady fun fuel => next fuel value)
    (starts : Ends computation state (.ok value) between)
    (goesOn : Ends (fun fuel => next fuel value) between ending after) :
    Ends (fun fuel => computation fuel >>= next fuel) state ending after := by
  obtain ⟨few, starts⟩ := starts
  obtain ⟨many, goesOn⟩ := goesOn
  refine ⟨max few many, ?_⟩
  have first : computation (max few many) state = (.ok value, between) :=
    steady.run_ok (Nat.le_max_left few many) starts
  change (computation (max few many) >>= next (max few many)) state = _
  rw [bind_run, first]
  exact steadyNext.run_eq (Nat.le_max_right few many) goesOn

/-- A sequence fails where its first part does. -/
theorem Ends.bind_error {next : Nat → α → ExceptT (Halt ε) (StateM σ) β} {state after : σ}
    {reason : ε} (fails : Ends computation state (.error reason) after) :
    Ends (fun fuel => computation fuel >>= next fuel) state (.error reason) after := by
  obtain ⟨fuel, failed⟩ := fails
  refine ⟨fuel, ?_⟩
  dsimp only
  rw [bind_run, failed]
  rfl

/-- A sequence ends with a fault of its first part, or as the second part does after the first. -/
theorem Ends.bind_cases {next : Nat → α → ExceptT (Halt ε) (StateM σ) β} {state after : σ}
    {ending : Except ε β}
    (ends : Ends (fun fuel => computation fuel >>= next fuel) state ending after) :
    (∃ reason, ending = .error reason ∧ Ends computation state (.error reason) after) ∨
      ∃ value between, Ends computation state (.ok value) between ∧
        Ends (fun fuel => next fuel value) between ending after := by
  obtain ⟨fuel, ended⟩ := ends
  dsimp only at ended
  rw [bind_run] at ended
  rcases outcome : computation fuel state with ⟨(reason | _) | value, between⟩
  · rw [outcome] at ended
    cases ending <;> cases ended
    exact .inl ⟨reason, rfl, fuel, outcome⟩
  · rw [outcome] at ended
    cases ending <;> cases ended
  · rw [outcome] at ended
    exact .inr ⟨value, between, ⟨fuel, outcome⟩, fuel, ended⟩

/-- What comes second in a sequence may be replaced by what ends in the same way. -/
theorem Ends.bind_imp {next another : Nat → α → ExceptT (Halt ε) (StateM σ) β} {state after : σ}
    {ending : Except ε β} (steady : Steady computation)
    (steadyAnother : ∀ value, Steady fun fuel => another fuel value)
    (same : ∀ value between, Ends (fun fuel => next fuel value) between ending after →
      Ends (fun fuel => another fuel value) between ending after)
    (ends : Ends (fun fuel => computation fuel >>= next fuel) state ending after) :
    Ends (fun fuel => computation fuel >>= another fuel) state ending after := by
  rcases ends.bind_cases with ⟨reason, rfl, fails⟩ | ⟨value, between, starts, goesOn⟩
  · exact fails.bind_error
  · exact starts.bind steady (steadyAnother value) (same value between goesOn)

/-- Computations that do the same from some amount of fuel on, up to a fixed difference, end in the
same way. -/
theorem ends_iff_of_eventually (steady : Steady computation) (steadyOther : Steady other)
    {enough spare : Nat} {state start : σ}
    (same : ∀ fuel, enough ≤ fuel → computation (fuel + spare) state = other fuel start)
    (ending : Except ε α) (after : σ) :
    Ends computation state ending after ↔ Ends other start ending after := by
  constructor
  · rintro ⟨fuel, ended⟩
    refine ⟨max fuel enough, ?_⟩
    rw [← same _ (Nat.le_max_right fuel enough)]
    exact steady.run_eq (Nat.le_trans (Nat.le_max_left _ _) (Nat.le_add_right _ _)) ended
  · rintro ⟨fuel, ended⟩
    refine ⟨max fuel enough + spare, ?_⟩
    rw [same _ (Nat.le_max_right fuel enough)]
    exact steadyOther.run_eq (Nat.le_max_left _ _) ended

/-- How a computation ends does not depend on one more unit of fuel. -/
theorem ends_succ_iff (steady : Steady computation) {state : σ} (ending : Except ε α) (after : σ) :
    Ends (fun fuel => computation (fuel + 1)) state ending after ↔
      Ends computation state ending after := by
  have same : ∀ fuel, 0 ≤ fuel → computation (fuel + 1) state = computation (fuel + 1) state :=
    fun _ _ => rfl
  have shifted : Steady fun fuel => computation (fuel + 1) := fun fuel => steady (fuel + 1)
  exact (ends_iff_of_eventually steady shifted same ending after).symm

end Steady

end ScriptLisp.Stateful
