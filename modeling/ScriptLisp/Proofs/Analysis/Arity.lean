import Mathlib.Data.List.Nodup
import ScriptLisp.Proofs.Analysis.Function
import ScriptLisp.Proofs.Stateful

/-!
Which clause takes a number of arguments. The rules for several clauses leave at most one clause of
each kind to choose from, so that in accepted functions the order of the clauses is of no account.

* `clauseFor?_eq`: fixed clauses are looked through before variadic ones.
* `clauseFor?_eq_of_perm`: where the rules hold, the choice does not depend on the order.
* `arityFault?_of_function`: they hold in every function of several clauses that is accepted.
-/

namespace ScriptLisp

open Grammar Analysis

/-! ### The choice of a clause -/

/-- A fixed clause takes a number of arguments. -/
def Clause.fixedFor (count : Nat) (clause : Clause) : Bool :=
  !clause.params.isVariadic && clause.params.accepts count

/-- A variadic clause takes a number of arguments. -/
def Clause.variadicFor (count : Nat) (clause : Clause) : Bool :=
  clause.params.isVariadic && clause.params.accepts count

theorem find?_or_find? {α : Type} (p q : α → Bool) (list : List α) :
    (list.find? fun a => !p a && q a).or (list.find? q) =
      (list.find? fun a => !p a && q a).or (list.find? fun a => p a && q a) := by
  induction list with
  | nil => rfl
  | cons a rest ih =>
    simp only [List.find?_cons]
    cases p a <;> cases q a <;> simp_all

/-- A variadic clause is looked for only if no fixed one takes the arguments. -/
theorem Lambda.clauseFor?_eq (function : Lambda) (count : Nat) :
    function.clauseFor? count =
      (function.clauses.find? (Clause.fixedFor count)).or
        (function.clauses.find? (Clause.variadicFor count)) :=
  find?_or_find? _ _ _

/-! ### Independence of the order -/

theorem filter_eq_of_perm {α : Type} {p : α → Bool} {left right : List α} (perm : left.Perm right)
    (one : (right.filter p).length ≤ 1) : left.filter p = right.filter p := by
  have same := perm.filter p
  rcases found : right.filter p with _ | ⟨a, _ | ⟨b, rest⟩⟩
  · rw [found] at same
    exact same.eq_nil
  · rw [found] at same
    exact List.perm_singleton.mp same
  · rw [found] at one
    exact absurd one (by simp)

/-- What is found does not depend on the order if there is at most one to find. -/
theorem find?_eq_of_perm {α : Type} {p : α → Bool} {left right : List α} (perm : left.Perm right)
    (one : (right.filter p).length ≤ 1) : left.find? p = right.find? p := by
  rw [← List.head?_filter, ← List.head?_filter, filter_eq_of_perm perm one]

theorem Grammar.ArityRules.perm {left right : List ClauseArity} (rules : ArityRules right)
    (perm : left.Perm right) : ArityRules left where
  oneVariadic := (perm.filter _).length_eq ▸ rules.oneVariadic
  distinct := ((perm.filter _).map _).nodup_iff.mpr rules.distinct
  within v memberV variadic c memberC fixed :=
    rules.within v (perm.mem_iff.mp memberV) variadic c (perm.mem_iff.mp memberC) fixed

section Rules

variable {clauses : List Clause}

theorem length_fixedFor_le_one (rules : ArityRules (clauses.map fun c => arityOf c.params))
    (count : Nat) : (clauses.filter (Clause.fixedFor count)).length ≤ 1 := by
  have distinct := rules.distinct
  rw [List.filter_map, List.map_map] at distinct
  have once := List.nodup_iff_count_le_one.mp distinct count
  rw [List.count_eq_countP, List.countP_map, List.countP_eq_length_filter,
    List.filter_filter] at once
  have same : ∀ c ∈ clauses, Clause.fixedFor count c =
      (((· == count) ∘ (·.params.required)) c && !c.params.isVariadic) := by
    intro c _
    simp only [Clause.fixedFor, Params.accepts, Function.comp_apply]
    cases c.params.isVariadic <;> simp [eq_comm]
  rwa [List.filter_congr same]

theorem length_variadicFor_le_one (rules : ArityRules (clauses.map fun c => arityOf c.params))
    (count : Nat) : (clauses.filter (Clause.variadicFor count)).length ≤ 1 := by
  have one := rules.oneVariadic
  rw [List.filter_map, List.length_map] at one
  refine Nat.le_trans (List.Sublist.length_le ?_) one
  exact List.monotone_filter_right clauses fun c takes => (Bool.and_eq_true _ _ ▸ takes).1

/-- Where the rules hold, the clause that takes a number of arguments does not depend on the order
in which the clauses are written. -/
theorem clauseFor?_eq_of_perm (rules : ArityRules (clauses.map fun c => arityOf c.params))
    {written : List Clause} (perm : written.Perm clauses) (count : Nat) :
    (Lambda.multi written).clauseFor? count = (Lambda.multi clauses).clauseFor? count := by
  rw [Lambda.clauseFor?_eq, Lambda.clauseFor?_eq]
  exact congrArg₂ Option.or (find?_eq_of_perm perm (length_fixedFor_le_one rules count))
    (find?_eq_of_perm perm (length_variadicFor_le_one rules count))

end Rules

/-! ### Accepted functions -/

namespace Analysis

open Session

theorem arityFault?_iff_rules {clauses : List Clause} :
    arityFault? (clauses.map (·.params)) = none ↔
      ArityRules (clauses.map fun c => arityOf c.params) := by
  rw [arityFault?_eq_none_iff, List.map_map]
  rfl

/-- No fault was found in the clauses of an accepted function. -/
theorem arityFault?_of_function {step : Step} {form : Form} {definition : List Form}
    {clauses : List Clause} {session after : Session}
    (accepted : function step form definition session = (.ok (.multi clauses), after)) :
    arityFault? (clauses.map (·.params)) = none := by
  unfold function at accepted
  split at accepted
  · rw [Stateful.bind_run] at accepted
    split at accepted <;> cases accepted
  · rw [Stateful.bind_run] at accepted
    split at accepted
    · rename_i given _ _
      cases found : arityFault? (given.map (·.params)) with
      | some fault =>
        simp only [found] at accepted
        cases accepted
      | none =>
        simp only [found] at accepted
        cases accepted
        exact found
    · cases accepted
  · cases accepted

end Analysis

end ScriptLisp
