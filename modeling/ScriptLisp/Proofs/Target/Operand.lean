import ScriptLisp.Proofs.Node.Variables
import ScriptLisp.Proofs.Text.Numerals
import ScriptLisp.Target.Operand

/-!
The shape of text that all targets write alike: every piece is closed when its parts are, under
any rules.
-/

namespace ScriptLisp

/-- The sign that an operator is written with. -/
def ArithmeticOperator.sign? : ArithmeticOperator → Option Char
  | .add => some '+'
  | .subtract => some '-'
  | .multiply | .divide => none

namespace Target

open Delimiters

theorem braced_moves {rules : Rules} {pending : List Char} {text : String}
    (inner : Moves rules (.code ('\x7d' :: pending)) text (.code ('\x7d' :: pending))) :
    Moves rules (.code pending) (braced text) (.code pending) :=
  .append (.spelledThen rfl rfl inner) (.spelled rfl rfl)

theorem commas_closed {rules : Rules} {texts : List String}
    (each : ∀ t ∈ texts, Closed rules t) : Closed rules (commas texts) :=
  .intercalate (.spelled rfl rfl) each

/-- A closed text in round brackets. -/
theorem parenthesized_closed {rules : Rules} {text : String} (closed : Closed rules text) :
    Closed rules ("(" ++ text ++ ")") :=
  .append (.spelledThen rfl rfl (closed.moves _)) (.spelled rfl rfl)

/-- In round brackets, semicolons are no matter. -/
theorem bracketed_closed {lineBreaks semicolons anywhere : Bool} {text : String}
    (closed : Closed ⟨lineBreaks, anywhere⟩ text) :
    Closed ⟨lineBreaks, semicolons⟩ ("(" ++ text ++ ")") :=
  .append (.spelledThen rfl rfl (closed.inside _ _)) (.spelled rfl rfl)

theorem integerText_closed (rules : Rules) (n : Int64) : Closed rules (integerText n) := by
  unfold integerText
  split
  · exact parenthesized_closed (plain_integer n).closed
  · exact (plain_integer n).closed

theorem decimalText_closed (rules : Rules) (d : Float) : Closed rules (decimalText d) := by
  unfold decimalText
  split
  · exact parenthesized_closed (plain_decimal d).closed
  · exact (plain_decimal d).closed

theorem arithmeticToken_closed (rules : Rules) (operator : ArithmeticOperator) :
    Closed rules (arithmeticToken operator) := by
  cases operator <;> exact .spelled rfl rfl

theorem unaryToken_closed (rules : Rules) (operator : UnaryOperator) :
    Closed rules (unaryToken operator) := by
  cases operator <;> exact .spelled rfl rfl

/-- Whether a character is a sign. -/
def isSign (c : Char) : Bool :=
  c == '-' || c == '+'

/-- Whether a text starts with a sign. -/
def isSigned (text : String) : Bool :=
  text.toList.head?.any isSign

/-- A token before an operand with a sign of its own is kept apart from it by a parenthesis. -/
theorem prefixed_eq (token operand : String) :
    prefixed token operand =
      if isSigned operand then token ++ "(" ++ operand ++ ")" else token ++ operand := by
  unfold prefixed isSigned
  split
  · next starts => simp [starts, isSign]
  · next starts => simp [starts, isSign]
  · next noMinus noPlus =>
    cases starts : operand.toList with
    | nil => simp
    | cons c cs =>
      have unsigned : isSign c = false := by
        simp only [isSign, Bool.or_eq_false_iff, beq_eq_false_iff_ne]
        exact ⟨fun same => noMinus cs (same ▸ starts), fun same => noPlus cs (same ▸ starts)⟩
      simp [unsigned]

theorem prefixed_closed {rules : Rules} {token operand : String} (closedToken : Closed rules token)
    (closed : Closed rules operand) : Closed rules (prefixed token operand) := by
  have bracketed : Closed rules (token ++ "(" ++ operand ++ ")") := by
    exact .append (.append (.append closedToken (.spelled rfl rfl)) (closed.moves _))
      (.spelled rfl rfl)
  unfold prefixed
  split
  · exact bracketed
  · exact bracketed
  · exact closedToken.concat closed

theorem prefixed_ne_empty {token operand : String} (filled : token ≠ "" ∨ operand ≠ "") :
    prefixed token operand ≠ "" := by
  rw [prefixed_eq]
  split
  · simp
  · rcases filled with filled | filled <;> simp [filled]

/-- Of a single operand, a sum or difference keeps its sign. -/
theorem arithmeticText_single (operator : ArithmeticOperator) (token operand : String) :
    arithmeticText operator token [operand] =
      if operator.sign?.isSome then prefixed token operand else operand := by
  cases operator <;> rfl

/-- Arithmetic on closed operands, however many there are. -/
theorem arithmeticText_closed {rules : Rules} {token : String} {operands : List String}
    (operator : ArithmeticOperator) (closedToken : Closed rules token)
    (each : ∀ t ∈ operands, Closed rules t) :
    Closed rules (arithmeticText operator token operands) := by
  match operands with
  | [] => cases operator <;> exact .spelled rfl rfl
  | [operand] =>
    have closed : Closed rules operand := each operand List.mem_cons_self
    cases operator with
    | add => exact prefixed_closed closedToken closed
    | subtract => exact prefixed_closed closedToken closed
    | multiply => exact closed
    | divide => exact closed
  | _ :: _ :: _ => exact parenthesized_closed (.intercalate closedToken each)

/-- Putting the fixed clauses first drops and adds none. -/
theorem mem_fixedFirst {α : Type} {isVariadic : α → Bool} {clauses : List α} {clause : α} :
    clause ∈ fixedFirst isVariadic clauses ↔ clause ∈ clauses := by
  simp only [fixedFirst, List.mem_append, List.mem_filter]
  cases isVariadic clause <;> simp

/-- Which clauses go first is decided by the clauses alone. -/
theorem fixedFirst_map {α β : Type} (isVariadic : β → Bool) (f : α → β) (clauses : List α) :
    fixedFirst isVariadic (clauses.map f) =
      (fixedFirst (fun clause => isVariadic (f clause)) clauses).map f := by
  simp only [fixedFirst, List.filter_map, List.map_append]
  rfl

/-- Clauses that all have a text are only put in order. -/
theorem inTrialOrder_ok (clauses : List (Params × String)) :
    inTrialOrder (clauses.map fun clause => (clause.1, .ok clause.2)) =
      .ok (fixedFirst (·.1.isVariadic) clauses) := by
  rw [inTrialOrder, fixedFirst_map, List.mapM_map]
  exact (List.mapM_pure (m := Except Failure) (f := id)).trans
    (congrArg Except.ok (List.map_id _))

/-! ### Checks -/

/-- A construct that the target declares to have a text passes the check. -/
theorem ensureSupported_of_supports {target : Target} {kind : NodeKind}
    (supported : target.supports kind = true) : target.ensureSupported kind = .ok () :=
  if_pos supported

theorem ensureSupported_bind {α : Type} {target : Target} {kind : NodeKind}
    {next : Unit → Except Failure α} (supported : target.supports kind = true) :
    (target.ensureSupported kind >>= next) = next () := by
  rw [ensureSupported_of_supports supported]
  rfl

end Target

end ScriptLisp
