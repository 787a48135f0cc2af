import Mathlib.Algebra.Ring.Int.Defs
import ScriptLisp.Proofs.Eval.Fuel
import ScriptLisp.Proofs.Integer

/-!
Arithmetic on integers is exact or refused. The operands are taken from left to right, each to the
number that was reached before it. As long as every step is exact, so is the result; at the first
step that is not, it is decided how the whole computation ends, and then no integer comes of it.

* `ArithmeticOperator.steps`, `Step.Exact`, `ArithmeticOperator.total`: a computation on whole
  numbers.
* `foldlM_exact`, `foldlM_inexact`: exact steps, and the first one that is not.
* `arithmetic_exact`: how sums, differences, products and quotients of integers end.
* `remainder_ends`: how remainders end.
-/

namespace ScriptLisp

open Integer (Fits)
open Stateful (Ends)

/-! ### Computations on whole numbers -/

namespace ArithmeticOperator

/-- What an operator gives on whole numbers; a quotient is cut off toward zero. -/
def onWhole : ArithmeticOperator → Int → Int → Int
  | add, a, b => a + b
  | subtract, a, b => a - b
  | multiply, a, b => a * b
  | divide, a, b => a.tdiv b

/-- One step of a computation: the number reached so far, and the operand taken to it. -/
structure Step where
  reached : Int
  operand : Int

/-- A step has an exact result: it fits, and a division leaves no remainder. -/
def Step.Exact (operator : ArithmeticOperator) (step : Step) : Prop :=
  Fits (operator.onWhole step.reached step.operand) ∧
    (operator = divide → step.operand ≠ 0 ∧ step.operand ∣ step.reached)

variable (operator : ArithmeticOperator)

/-- The steps that take operands, in turn, to a number. -/
def stepsFrom : Int → List Int → List Step
  | _, [] => []
  | reached, operand :: rest =>
    ⟨reached, operand⟩ :: stepsFrom (operator.onWhole reached operand) rest

/-- The number that a computation starts with, and the operands that are taken to it. A single
operand of a difference is taken from zero. -/
def start : List Int64 → Int64 × List Int64
  | [] => (match operator with | add | subtract => 0 | multiply | divide => 1, [])
  | [operand] => if operator = subtract then (0, [operand]) else (operand, [])
  | first :: rest => (first, rest)

/-- All steps of a computation. -/
def steps (operands : List Int64) : List Step :=
  operator.stepsFrom (operator.start operands).1.toInt ((operator.start operands).2.map (·.toInt))

/-- The whole number that a computation reaches in the end. -/
def total (operands : List Int64) : Int :=
  ((operator.start operands).2.map (·.toInt)).foldl operator.onWhole
    (operator.start operands).1.toInt

/-- With nothing left over at any step, the result times all that it was divided by is the number
that was divided. -/
theorem foldl_divide_mul_prod {number : Int} {divisors : List Int}
    (even : ∀ step ∈ divide.stepsFrom number divisors, step.operand ∣ step.reached) :
    divisors.foldl divide.onWhole number * divisors.prod = number := by
  induction divisors generalizing number with
  | nil => exact Int.mul_one number
  | cons divisor rest ih =>
    obtain ⟨first, others⟩ := List.forall_mem_cons.mp even
    calc rest.foldl divide.onWhole (divide.onWhole number divisor) * (divisor :: rest).prod
      _ = rest.foldl divide.onWhole (divide.onWhole number divisor) * rest.prod * divisor := by
        rw [List.prod_cons, Int.mul_comm divisor, Int.mul_assoc]
      _ = number.tdiv divisor * divisor := congrArg (· * divisor) (ih others)
      _ = number := Int.tdiv_mul_cancel first

end ArithmeticOperator

namespace Eval

open ArithmeticOperator (Step)

/-! ### Single steps -/

variable {operator : ArithmeticOperator}

/-- An exact step gives the word of its result. -/
theorem integerStep_of_exact {l r : Int64} (exact : Step.Exact operator ⟨l.toInt, r.toInt⟩) :
    ∃ word : Int64, word.toInt = operator.onWhole l.toInt r.toInt ∧
      integerStep operator l r = .ok (.integer word) := by
  obtain ⟨fits, even⟩ := exact
  obtain ⟨word, made, value⟩ := Integer.exists_of_fits fits
  refine ⟨word, value, ?_⟩
  cases operator with
  | add | subtract | multiply => exact congrArg Eval.exact made
  | divide =>
    obtain ⟨nonzero, divides⟩ := even rfl
    have divisor : r ≠ 0 := by
      rintro rfl
      exact nonzero rfl
    rw [integerStep, if_neg divisor, if_pos (Int.tmod_eq_zero_of_dvd divides)]
    exact congrArg Eval.exact made

/-- A step whose result does not fit is refused. -/
theorem integerStep_overflow {l r : Int64} (other : operator ≠ .divide)
    (large : ¬ Fits (operator.onWhole l.toInt r.toInt)) :
    integerStep operator l r = .error (.arithmetic .overflow) := by
  have none := Integer.ofInt?_of_not_fits large
  cases operator with
  | add | subtract | multiply => exact congrArg Eval.exact none
  | divide => exact absurd rfl other

/-- A quotient that leaves a remainder is a decimal. -/
theorem integerStep_uneven {l r : Int64} (nonzero : r.toInt ≠ 0) (uneven : ¬ r.toInt ∣ l.toInt) :
    integerStep .divide l r = .ok (.decimal (l.toFloat / r.toFloat)) := by
  have divisor : r ≠ 0 := by
    rintro rfl
    exact nonzero rfl
  rw [integerStep, if_neg divisor, if_neg (mt Int.dvd_of_tmod_eq_zero uneven)]

/-! ### Steps in turn -/

theorem foldlM_exact {first : Int64} {rest : List Int64}
    (exact : ∀ step ∈ operator.stepsFrom first.toInt (rest.map (·.toInt)), step.Exact operator) :
    ∃ word : Int64, word.toInt = (rest.map (·.toInt)).foldl operator.onWhole first.toInt ∧
      (rest.map Value.integer).foldlM (arithmeticStep operator) (.integer first) =
        .ok (.integer word) := by
  induction rest generalizing first with
  | nil => exact ⟨first, rfl, rfl⟩
  | cons operand rest ih =>
    obtain ⟨here, later⟩ := List.forall_mem_cons.mp exact
    obtain ⟨reached, value, stepped⟩ := integerStep_of_exact here
    rw [← value] at later
    obtain ⟨word, total, folded⟩ := ih later
    refine ⟨word, ?_, ?_⟩
    · rw [total, value]
      rfl
    · rw [List.map_cons, List.foldlM_cons, arithmeticStep, stepped]
      exact folded

/-- The first step that is not exact is taken to words, and what it gives is taken on. -/
theorem foldlM_inexact {first : Int64} {rest : List Int64} {before later : List Step} {step : Step}
    (split : operator.stepsFrom first.toInt (rest.map (·.toInt)) = before ++ step :: later)
    (exact : ∀ earlier ∈ before, earlier.Exact operator) :
    ∃ (l r : Int64) (others : List Int64), l.toInt = step.reached ∧ r.toInt = step.operand ∧
      (rest.map Value.integer).foldlM (arithmeticStep operator) (.integer first) =
        (integerStep operator l r).bind fun reached =>
          (others.map Value.integer).foldlM (arithmeticStep operator) reached := by
  induction before generalizing first rest with
  | nil =>
    cases rest with
    | nil => cases split
    | cons operand rest =>
      obtain ⟨rfl, -⟩ := List.cons.inj split
      exact ⟨first, operand, rest, rfl, rfl, rfl⟩
  | cons earlier before ih =>
    cases rest with
    | nil => cases split
    | cons operand rest =>
      obtain ⟨rfl, behind⟩ := List.cons.inj split
      obtain ⟨here, more⟩ := List.forall_mem_cons.mp exact
      obtain ⟨reached, value, stepped⟩ := integerStep_of_exact here
      rw [← value] at behind
      obtain ⟨l, r, others, left, right, folded⟩ := ih behind more
      refine ⟨l, r, others, left, right, ?_⟩
      rw [List.map_cons, List.foldlM_cons, arithmeticStep, stepped]
      exact folded

/-- A computation that has come to a decimal ends with one. -/
theorem foldlM_decimal (reached : Float) (operands : List Int64) :
    ∃ d, (operands.map Value.integer).foldlM (arithmeticStep operator) (.decimal reached) =
      .ok (.decimal d) := by
  induction operands generalizing reached with
  | nil => exact ⟨reached, rfl⟩
  | cons operand rest ih => exact ih (decimalStep operator reached operand.toFloat)

/-! ### Whole computations -/

variable (operator) in
/-- Every computation takes its operands, in turn, to the number that it starts with. -/
theorem arithmetic_eq_foldlM (operands : List Int64) :
    arithmetic operator (operands.map .integer) =
      ((operator.start operands).2.map Value.integer).foldlM (arithmeticStep operator)
        (.integer (operator.start operands).1) := by
  match operands with
  | [] => cases operator <;> rfl
  | [operand] =>
    cases operator with
    | subtract => exact (bind_pure (arithmeticStep .subtract (.integer 0) (.integer operand))).symm
    | _ => rfl
  | _ :: _ :: _ => cases operator <;> rfl

theorem arithmetic_of_exact {operands : List Int64}
    (exact : ∀ step ∈ operator.steps operands, step.Exact operator) :
    ∃ word : Int64, word.toInt = operator.total operands ∧
      arithmetic operator (operands.map .integer) = .ok (.integer word) := by
  rw [arithmetic_eq_foldlM]
  exact foldlM_exact exact

/-- The least integer divided by minus one is the only quotient without a remainder that does not
fit. -/
theorem fits_of_mul {b c : Int} (product : Fits (b * c)) (nonzero : b ≠ 0)
    (other : ¬ (b * c = Int64.minValue.toInt ∧ b = -1)) : Fits c := by
  obtain ⟨least, most⟩ := product
  have limit : Int64.minValue.toInt = -9223372036854775808 := rfl
  rw [limit] at other
  have smaller : c.natAbs ≤ (b * c).natAbs := by
    rw [Int.natAbs_mul]
    exact Nat.le_mul_of_pos_left _ (Int.natAbs_pos.mpr nonzero)
  have inside : c ≠ 9223372036854775808 := by
    rintro rfl
    omega
  constructor <;> omega

/-- How a computation ends at a step that is not exact. -/
inductive Stops (operator : ArithmeticOperator) (step : Step) : Except Fault Value → Prop
  | overflow (other : operator ≠ .divide) : Stops operator step (.error (.arithmetic .overflow))
  | zero (which : operator = .divide) (zero : step.operand = 0) :
      Stops operator step (.error (.arithmetic .divisionByZero))
  | least (which : operator = .divide) (least : step.reached = Int64.minValue.toInt)
      (negative : step.operand = -1) : Stops operator step (.error (.arithmetic .overflow))
  | uneven (which : operator = .divide) (nonzero : step.operand ≠ 0)
      (uneven : ¬ step.operand ∣ step.reached) (d : Float) :
      Stops operator step (.ok (.decimal d))

/-- The first step that is not exact decides how a computation ends. -/
theorem stops_arithmetic {operands : List Int64} {before later : List Step} {step : Step}
    (split : operator.steps operands = before ++ step :: later)
    (exact : ∀ earlier ∈ before, earlier.Exact operator) (inexact : ¬ step.Exact operator) :
    Stops operator step (arithmetic operator (operands.map .integer)) := by
  obtain ⟨l, r, others, left, right, folded⟩ := foldlM_inexact split exact
  obtain ⟨reached, operand⟩ := step
  obtain rfl : l.toInt = reached := left
  obtain rfl : r.toInt = operand := right
  rw [arithmetic_eq_foldlM, folded]
  by_cases which : operator = .divide
  · subst which
    by_cases zero : r = 0
    · subst zero
      exact .zero rfl rfl
    · have nonzero : r.toInt ≠ 0 := fun same => zero (Int64.toInt_inj.mp same)
      by_cases even : r.toInt ∣ l.toInt
      · by_cases limit : l.toInt = Int64.minValue.toInt ∧ r.toInt = -1
        · obtain rfl : l = Int64.minValue := Int64.toInt_inj.mp limit.1
          obtain rfl : r = -1 := Int64.toInt_inj.mp limit.2
          exact .least rfl rfl rfl
        -- Any other even quotient is a word, so this step would be exact.
        · refine absurd ⟨?_, fun _ => ⟨nonzero, even⟩⟩ inexact
          have product := Int.mul_tdiv_cancel' even
          refine fits_of_mul (b := r.toInt) ?_ nonzero ?_
          · rw [ArithmeticOperator.onWhole, product]
            exact Integer.fits_toInt l
          · rw [ArithmeticOperator.onWhole, product]
            exact limit
      · rw [integerStep_uneven nonzero even]
        obtain ⟨d, ends⟩ := foldlM_decimal (l.toFloat / r.toFloat) others
        rw [Except.bind, ends]
        exact .uneven rfl nonzero even d
  · have large : ¬ Fits (operator.onWhole l.toInt r.toInt) :=
      fun fits => inexact ⟨fits, fun same => absurd same which⟩
    rw [integerStep_overflow which large]
    exact .overflow which

theorem exists_first_inexact {steps : List Step}
    (inexact : ¬ ∀ step ∈ steps, step.Exact operator) :
    ∃ before step later, steps = before ++ step :: later ∧
      (∀ earlier ∈ before, earlier.Exact operator) ∧ ¬ step.Exact operator := by
  induction steps with
  | nil => exact absurd (List.forall_mem_nil _) inexact
  | cons first rest ih =>
    by_cases exact : first.Exact operator
    · have later : ¬ ∀ step ∈ rest, step.Exact operator :=
        fun all => inexact (List.forall_mem_cons.mpr ⟨exact, all⟩)
      obtain ⟨before, step, behind, rfl, all, here⟩ := ih later
      exact ⟨first :: before, step, behind, rfl, List.forall_mem_cons.mpr ⟨exact, all⟩, here⟩
    · exact ⟨[], first, rest, rfl, List.forall_mem_nil _, exact⟩

/-- An integer comes of a computation exactly if every step is exact, and then it is the total. -/
theorem arithmetic_eq_integer_iff {operands : List Int64} {word : Int64} :
    arithmetic operator (operands.map .integer) = .ok (.integer word) ↔
      (∀ step ∈ operator.steps operands, step.Exact operator) ∧
        word.toInt = operator.total operands := by
  by_cases exact : ∀ step ∈ operator.steps operands, step.Exact operator
  · obtain ⟨total, value, ends⟩ := arithmetic_of_exact exact
    rw [ends, ← value, Int64.toInt_inj]
    constructor
    · rintro ⟨⟩
      exact ⟨exact, rfl⟩
    · rintro ⟨-, rfl⟩
      rfl
  · obtain ⟨before, step, later, split, earlier, inexact⟩ := exists_first_inexact exact
    have stops := stops_arithmetic split earlier inexact
    constructor
    · intro ends
      rw [ends] at stops
      cases stops
    · exact fun both => absurd both.1 exact

/-! ### Evaluated operands -/

theorem eval_arithmetic (fuel : Nat) (environment : Environment) (operator : ArithmeticOperator)
    (args : List Node) :
    eval (fuel + 1) environment (.arithmetic operator args) =
      values (run fuel environment) args >>= fun operands =>
        lift (arithmetic operator operands) := by
  rw [eval, run]
  simp only [valueOf_bind, valueOf_pure, bind_pure]

/-- Arithmetic on nodes is arithmetic on what they evaluate to. -/
theorem evaluatesTo_arithmetic {environment : Environment} {args : List Node}
    {machine after : Machine} {operands : List Value} (operator : ArithmeticOperator)
    (given : Ends (fun fuel => values (run fuel environment) args) machine (.ok operands) after) :
    EvaluatesTo environment (.arithmetic operator args) machine (arithmetic operator operands)
      after := by
  refine .of_succ ?_
  simp only [eval_arithmetic]
  exact given.bind (steady_values environment args) (.const _) (ends_lift _ after)

/-- The evaluation of a sum, difference, product or quotient of integers gives an integer exactly if
every step is exact, and then it is the total. Otherwise a sum, difference or product has an integer
overflow. A quotient without remainders, times all the divisors, is the number that was divided. At
the first division that is not exact, the evaluation fails if an integer is divided by zero or the
least integer by minus one, and if only a remainder is left, it gives a decimal. -/
theorem arithmetic_exact {environment : Environment} {args : List Node} {machine after : Machine}
    {operands : List Int64} (operator : ArithmeticOperator)
    (given : Ends (fun fuel => values (run fuel environment) args) machine
      (.ok (operands.map .integer)) after) :
    (∀ word : Int64,
      EvaluatesTo environment (.arithmetic operator args) machine (.ok (.integer word)) after ↔
        (∀ step ∈ operator.steps operands, step.Exact operator) ∧
          word.toInt = operator.total operands) ∧
    (operator ≠ .divide → (¬ ∀ step ∈ operator.steps operands, step.Exact operator) →
      EvaluatesTo environment (.arithmetic operator args) machine
        (.error (.arithmetic .overflow)) after) ∧
    (operator = .divide → (∀ step ∈ operator.steps operands, step.Exact operator) →
      operator.total operands * ((operator.start operands).2.map (·.toInt)).prod =
        (operator.start operands).1.toInt) ∧
    (operator = .divide → ∀ before step later, operator.steps operands = before ++ step :: later →
      (∀ earlier ∈ before, earlier.Exact operator) →
        (step.operand = 0 → EvaluatesTo environment (.arithmetic operator args) machine
          (.error (.arithmetic .divisionByZero)) after) ∧
        (step.reached = Int64.minValue.toInt → step.operand = -1 →
          EvaluatesTo environment (.arithmetic operator args) machine
            (.error (.arithmetic .overflow)) after) ∧
        (step.operand ≠ 0 → ¬ step.operand ∣ step.reached →
          ∃ d, EvaluatesTo environment (.arithmetic operator args) machine
            (.ok (.decimal d)) after)) ∧
    Fault.message (.arithmetic .overflow) = "ArithmeticError: integer overflow" ∧
    Fault.message (.arithmetic .divisionByZero) = "ArithmeticError: division by zero" := by
  have ends := evaluatesTo_arithmetic operator given
  refine ⟨fun word => ?_, fun other inexact => ?_, ?_, ?_, rfl, rfl⟩
  · rw [← arithmetic_eq_integer_iff]
    constructor
    · exact fun integer => (ends.unique integer).1
    · exact fun integer => integer ▸ ends
  · obtain ⟨before, step, later, split, earlier, here⟩ := exists_first_inexact inexact
    have stops := stops_arithmetic split earlier here
    generalize arithmetic operator (operands.map .integer) = ending at ends stops
    cases stops with
    | overflow => exact ends
    | zero which | least which | uneven which => exact absurd which other
  · rintro rfl exact
    exact ArithmeticOperator.foldl_divide_mul_prod fun step member => ((exact step member).2 rfl).2
  · rintro rfl before step later split earlier
    -- Each condition makes the step inexact, and all other ways to stop contradict it.
    have stops (inexact : ¬ step.Exact .divide) := stops_arithmetic split earlier inexact
    generalize arithmetic .divide (operands.map .integer) = ending at ends stops
    refine ⟨fun zero => ?_, fun least negative => ?_, fun nonzero uneven => ?_⟩
    · cases stops fun exact => (exact.2 rfl).1 zero with
      | zero => exact ends
      | overflow other => exact absurd rfl other
      | least _ _ negative => omega
      | uneven _ nonzero => exact absurd zero nonzero
    · have large : ¬ step.Exact .divide := by
        rintro ⟨fits, -⟩
        rw [least, negative] at fits
        revert fits
        decide
      cases stops large with
      | least => exact ends
      | overflow other => exact absurd rfl other
      | zero _ zero => omega
      | uneven _ _ uneven => exact absurd ⟨-step.reached, by rw [negative]; omega⟩ uneven
    · cases stops fun exact => uneven (exact.2 rfl).2 with
      | uneven _ _ _ d => exact ⟨d, ends⟩
      | overflow other => exact absurd rfl other
      | zero _ zero => exact absurd zero nonzero
      | least _ _ negative => exact absurd ⟨-step.reached, by rw [negative]; omega⟩ uneven

/-- The operands of `(+ 9223372036854775807 1 -1)`. -/
def pastTheEnd : List Int64 :=
  [Int64.maxValue, 1, -1]

/-- The total of the sum is the greatest integer, but it is reached through one that does not
fit. -/
theorem arithmetic_exact_pastTheEnd :
    Ends (fun fuel => values (run fuel []) (pastTheEnd.map fun i => .integer ⟨0, i⟩)) (.new .ruby)
      (.ok (pastTheEnd.map .integer)) (.new .ruby) ∧
    Integer.Fits (ArithmeticOperator.total .add pastTheEnd) ∧
    EvaluatesTo [] (.arithmetic .add (pastTheEnd.map fun i => .integer ⟨0, i⟩)) (.new .ruby)
      (.error (.arithmetic .overflow)) (.new .ruby) := by
  have given : Ends (fun fuel => values (run fuel []) (pastTheEnd.map fun i => .integer ⟨0, i⟩))
      (.new .ruby) (.ok (pastTheEnd.map .integer)) (.new .ruby) := ⟨1, rfl⟩
  refine ⟨given, by decide, (arithmetic_exact .add given).2.1 (by decide) fun exact => ?_⟩
  have fits : Integer.Fits 9223372036854775808 := (exact ⟨9223372036854775807, 1⟩ (.head _)).1
  revert fits
  decide

/-! ### Remainders -/

theorem eval_modulo (fuel : Nat) (environment : Environment) (left right : Node) :
    eval (fuel + 1) environment (.binary .modulo left right) =
      eval fuel environment left >>= fun l => eval fuel environment right >>= fun r =>
        lift (binary .modulo l r) := by
  rw [eval, run]
  · simp only [valueOf_bind, valueOf_pure, bind_pure]
    rfl
  all_goals
    intro other
    cases other

theorem evaluatesTo_modulo {environment : Environment} {left right : Node}
    {machine between after : Machine} {l r : Int64}
    (first : EvaluatesTo environment left machine (.ok (.integer l)) between)
    (second : EvaluatesTo environment right between (.ok (.integer r)) after) :
    EvaluatesTo environment (.binary .modulo left right) machine
      ((remainder l r).map .integer) after := by
  have divided : binary .modulo (.integer l) (.integer r) = (remainder l r).map .integer := by
    change (remainder l r >>= fun word => pure (Value.integer word)) = _
    cases remainder l r <;> rfl
  have ends := divided ▸ ends_lift (binary .modulo (.integer l) (.integer r)) after
  refine .of_succ ?_
  simp only [eval_modulo]
  refine first.bind (steady_eval environment left) ?_ ?_
  · exact fun fuel => (steady_eval environment right fuel).returning
  · exact second.bind (steady_eval environment right) (.const _) ends

/-- What a quotient leaves over always fits. -/
theorem toInt_tmod (l r : Int64) :
    (Int64.ofInt (l.toInt.tmod r.toInt)).toInt = l.toInt - r.toInt * l.toInt.tdiv r.toInt := by
  rw [← Int64.toInt_mod, Int64.ofInt_toInt, Int64.toInt_mod, Int.tmod_def]

/-- A remainder fails, as a division by zero, exactly if the divisor is zero or the least integer is
divided by minus one. Otherwise it is what the quotient, cut off toward zero, leaves over. -/
theorem remainder_ends {environment : Environment} {left right : Node}
    {machine between after : Machine} {l r : Int64}
    (first : EvaluatesTo environment left machine (.ok (.integer l)) between)
    (second : EvaluatesTo environment right between (.ok (.integer r)) after) :
    (EvaluatesTo environment (.binary .modulo left right) machine
        (.error (.arithmetic .divisionByZero)) after ↔
      r = 0 ∨ (l = Int64.minValue ∧ r = -1)) ∧
    (¬ (r = 0 ∨ (l = Int64.minValue ∧ r = -1)) →
      ∃ word : Int64, EvaluatesTo environment (.binary .modulo left right) machine
          (.ok (.integer word)) after ∧
        word.toInt = l.toInt - r.toInt * l.toInt.tdiv r.toInt) ∧
    Fault.message (.arithmetic .divisionByZero) = "ArithmeticError: division by zero" := by
  have ends := evaluatesTo_modulo first second
  by_cases refused : r = 0 ∨ (l = Int64.minValue ∧ r = -1)
  · rw [remainder, if_pos refused] at ends
    exact ⟨iff_of_true ends refused, fun allowed => absurd refused allowed, rfl⟩
  · rw [remainder, if_neg refused] at ends
    refine ⟨iff_of_false (fun fails => ?_) refused, fun _ => ⟨_, ends, ?_⟩, rfl⟩
    · cases (ends.unique fails).1
    · exact toInt_tmod l r

/-- The remainder has the sign of the number that is divided. -/
theorem remainder_ends_negative :
    EvaluatesTo [] (.integer ⟨0, -7⟩) (.new .ruby) (.ok (.integer (-7))) (.new .ruby) ∧
    EvaluatesTo [] (.integer ⟨1, 2⟩) (.new .ruby) (.ok (.integer 2)) (.new .ruby) ∧
    ∃ word : Int64, EvaluatesTo [] (.binary .modulo (.integer ⟨0, -7⟩) (.integer ⟨1, 2⟩))
      (.new .ruby) (.ok (.integer word)) (.new .ruby) ∧ word.toInt = -1 := by
  have first : EvaluatesTo [] (.integer ⟨0, -7⟩) (.new .ruby) (.ok (.integer (-7))) (.new .ruby) :=
    ⟨1, rfl⟩
  have second : EvaluatesTo [] (.integer ⟨1, 2⟩) (.new .ruby) (.ok (.integer 2)) (.new .ruby) :=
    ⟨1, rfl⟩
  exact ⟨first, second, (remainder_ends first second).2.1 (by decide)⟩

/-- Dividing the least integer by minus one leaves nothing over, but is refused as a division by
zero. -/
theorem remainder_of_least_refused :
    EvaluatesTo [] (.binary .modulo (.integer ⟨0, Int64.minValue⟩) (.integer ⟨1, -1⟩))
      (.new .javascript) (.error (.arithmetic .divisionByZero)) (.new .javascript) ∧
    (-1 : Int64) ≠ 0 ∧
    Int64.minValue.toInt - (-1 : Int64).toInt * Int64.minValue.toInt.tdiv (-1 : Int64).toInt =
      0 := by
  exact ⟨⟨2, rfl⟩, by decide, by decide⟩

end Eval

end ScriptLisp
