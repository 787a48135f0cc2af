import ScriptLisp.Eval.Run
import ScriptLisp.Proofs.Stateful
import ScriptLisp.Proofs.Value.Renumbering

/-!
Operators and library procedures under other identities of procedures. What they are given under
other identities they answer under the same ones, and they fail for the same reason with the same
message: none of them looks at an identity but to tell whether two closures are the same.

* `Fault.renumber`, `Flow.renumber`, `Machine.renumber`: all that an evaluation deals with, under
  other identities.
* `order_renumber`, `arithmetic_renumber`, `binary_renumber`, `unary_renumber`: operators.
* `conj_renumber`, `nth_renumber`, `concat_renumber`, ...: what the library procedures do.
-/

namespace ScriptLisp.Eval

open Value (renumber renumberEntry)

variable {numbering : Renumbering} {α β : Type}

/-! ### Faults, endings and machines -/

/-- A fault under other identities. -/
def Fault.renumber (numbering : Renumbering) : Fault → Fault
  | .notCallable value => .notCallable (value.renumber numbering)
  | .wrongType expected got => .wrongType expected (got.renumber numbering)
  | .thrown value => .thrown (value.renumber numbering)
  | reason => reason

/-- Messages show no identity, so a handler sees the same text. -/
theorem message_renumber (numbering : Renumbering) (reason : Fault) :
    (reason.renumber numbering).message = reason.message := by
  cases reason with
  | notCallable | wrongType | thrown =>
    unfold Fault.renumber Fault.message
    dsimp only
    rw [Value.display_renumber]
  | _ => rw [Fault.renumber]; all_goals exact nofun

/-- How a node in tail position ends, under other identities. -/
def Flow.renumber (numbering : Renumbering) : Flow → Flow
  | .value result => .value (result.renumber numbering)
  | .recur values => .recur (values.map (Value.renumber numbering))

/-- A machine under other identities, ahead in its count of them. -/
def Machine.renumber (numbering : Renumbering) (machine : Machine) : Machine where
  globals := Environment.renumber numbering machine.globals
  gensyms := machine.gensyms
  closures := machine.closures + numbering.shift

/-! ### Results without a machine -/

/-- A result or fault under other identities, given what they make of the result. -/
def renumberResult (numbering : Renumbering) (f : α → α) : Except Fault α → Except Fault α
  | .ok value => .ok (f value)
  | .error reason => .error (reason.renumber numbering)

section Results

variable {f : α → α} {g : β → β} {result renumbered : Except Fault α}

/-- The rule for a result that another computation goes on with. -/
theorem result_bind {next nextRenumbered : α → Except Fault β}
    (starts : renumbered = renumberResult numbering f result)
    (goesOn : ∀ value, nextRenumbered (f value) = renumberResult numbering g (next value)) :
    renumbered >>= nextRenumbered = renumberResult numbering g (result >>= next) := by
  subst starts
  cases result with
  | ok value => exact goesOn value
  | error reason => rfl

theorem result_map {h k : α → β} (starts : renumbered = renumberResult numbering f result)
    (maps : ∀ value, k (f value) = g (h value)) :
    renumbered.map k = renumberResult numbering g (result.map h) := by
  subst starts
  cases result with
  | ok value => exact congrArg Except.ok (maps value)
  | error reason => rfl

end Results

/-! ### Operators -/

theorem integer_renumber (value : Value) :
    integer (value.renumber numbering) = renumberResult numbering id (integer value) := by
  cases value <;> rfl

theorem decimal_renumber (value : Value) :
    decimal (value.renumber numbering) = renumberResult numbering id (decimal value) := by
  cases value <;> rfl

/-- Only numbers pass, and a number holds no identity. -/
theorem number_renumber (value : Value) :
    number (value.renumber numbering) =
      renumberResult numbering (renumber numbering) (number value) := by
  rw [number, number, Value.isNumber_renumber]
  split <;> rfl

/-- What is done with two numbers as decimals. -/
theorem decimals_renumber {g : β → β} (left right : Value)
    {next : Float → Float → Except Fault β}
    (same : ∀ l r, next l r = renumberResult numbering g (next l r)) :
    (do
      let l ← decimal (left.renumber numbering)
      let r ← decimal (right.renumber numbering)
      next l r) =
    renumberResult numbering g (do
      let l ← decimal left
      let r ← decimal right
      next l r) :=
  result_bind (decimal_renumber left) fun l => result_bind (decimal_renumber right) (same l)

theorem order_decimals (numbering : Renumbering) (l r : Float) :
    order (.decimal l) (.decimal r) =
      renumberResult numbering id (order (.decimal l) (.decimal r)) := by
  unfold order
  dsimp only [decimal, bind, Except.bind]
  split
  · rfl
  · split
    · rfl
    · split <;> rfl

/-- Order is between numbers or between strings, none of which holds an identity. -/
theorem order_renumber (left right : Value) :
    order (left.renumber numbering) (right.renumber numbering) =
      renumberResult numbering id (order left right) := by
  have decimals := decimals_renumber left right (order_decimals numbering)
  cases left with
  | integer =>
    cases right with
    | integer => rfl
    | _ => exact decimals
  | string =>
    cases right with
    | string => rfl
    | _ => exact decimals
  | _ => exact decimals

theorem exact_renumber (result : Option Int64) :
    exact result = renumberResult numbering (renumber numbering) (exact result) := by
  cases result <;> rfl

/-- One step on integers gives the same integer, or fails for the same reason. -/
theorem integerStep_renumber (operator : ArithmeticOperator) (l r : Int64) :
    integerStep operator l r =
      renumberResult numbering (renumber numbering) (integerStep operator l r) := by
  cases operator with
  | add | subtract | multiply => exact exact_renumber _
  | divide =>
    rw [integerStep]
    split
    · rfl
    · split
      · exact exact_renumber _
      · rfl

theorem arithmeticStep_renumber (operator : ArithmeticOperator) (left right : Value) :
    arithmeticStep operator (left.renumber numbering) (right.renumber numbering) =
      renumberResult numbering (renumber numbering) (arithmeticStep operator left right) := by
  have decimals {next : Float → Float → Except Fault Value} :
      (∀ l r, next l r = renumberResult numbering (renumber numbering) (next l r)) → _ :=
    decimals_renumber left right
  cases left with
  | integer l =>
    cases right with
    | integer r => exact integerStep_renumber operator l r
    | _ => exact decimals fun l r => rfl
  | _ => exact decimals fun l r => rfl

/-- By induction on the operands: what has been accumulated is renumbered as well. -/
theorem foldlM_renumber (operator : ArithmeticOperator) (rest : List Value) (first : Value) :
    (rest.map (renumber numbering)).foldlM (arithmeticStep operator) (first.renumber numbering) =
      renumberResult numbering (renumber numbering)
        (rest.foldlM (arithmeticStep operator) first) := by
  induction rest generalizing first with
  | nil => rfl
  | cons next rest ih =>
    rw [List.map_cons, List.foldlM_cons, List.foldlM_cons]
    exact result_bind (arithmeticStep_renumber operator first next) ih

/-- Arithmetic on renumbered operands is the renumbered result. -/
theorem arithmetic_renumber (operator : ArithmeticOperator) (operands : List Value) :
    arithmetic operator (operands.map (renumber numbering)) =
      renumberResult numbering (renumber numbering) (arithmetic operator operands) := by
  rcases operands with _ | ⟨first, _ | ⟨second, rest⟩⟩
  · cases operator <;> rfl
  · cases operator with
    | subtract => exact arithmeticStep_renumber .subtract (.integer 0) first
    | _ => exact number_renumber first
  · cases operator <;>
      exact result_bind (number_renumber first) fun value =>
        foldlM_renumber _ (second :: rest) value

theorem integerOperation_renumber (operator : BinaryOperator) (l r : Int64) :
    integerOperation operator l r =
      renumberResult numbering id (integerOperation operator l r) := by
  rw [integerOperation.eq_def]
  split
  · rw [remainder]
    split <;> rfl
  all_goals rfl

/-- Comparisons go through equality and order, which renumbering keeps. -/
theorem binary_renumber (operator : BinaryOperator) (left right : Value) :
    binary operator (left.renumber numbering) (right.renumber numbering) =
      renumberResult numbering (renumber numbering) (binary operator left right) := by
  cases operator with
  | equal | notEqual | identical => simp [binary, renumberResult, renumber]
  | lessThan | lessThanOrEqual | greaterThan | greaterThanOrEqual =>
    exact result_bind (order_renumber left right) fun _ => rfl
  | _ =>
    refine result_bind (integer_renumber left) fun l => ?_
    refine result_bind (integer_renumber right) fun r => ?_
    exact result_bind (integerOperation_renumber _ l r) fun _ => rfl

theorem unary_renumber (operator : UnaryOperator) (operand : Value) :
    unary operator (operand.renumber numbering) =
      renumberResult numbering (renumber numbering) (unary operator operand) := by
  cases operator with
  | not => simp [unary, renumberResult, renumber]
  | bitNot => exact result_bind (integer_renumber operand) fun _ => rfl

/-! ### Library procedures -/

theorem elementsOf_renumber (value : Value) :
    elementsOf (value.renumber numbering) =
      renumberResult numbering (List.map (renumber numbering)) (elementsOf value) := by
  rw [elementsOf, elementsOf, Value.elements?_renumber]
  cases value.elements? <;> rfl

/-- Entries are added under keys that are equal before exactly if they are equal after. -/
theorem conjEntries_renumber (entries : List (Value × Value)) (additions : List Value) :
    conjEntries (entries.map (renumberEntry numbering)) (additions.map (renumber numbering)) =
      renumberResult numbering (List.map (renumberEntry numbering))
        (conjEntries entries additions) := by
  induction additions generalizing entries with
  | nil => rfl
  | cons addition rest ih =>
    refine result_bind (elementsOf_renumber addition) fun elements => ?_
    rcases elements with _ | ⟨key, _ | ⟨item, _ | ⟨third, more⟩⟩⟩
    · rfl
    · rfl
    · simp only [List.map_cons, List.map_nil, Value.insertEntry_renumber]
      exact ih _
    · rfl

/-- Adding to a collection, by its kind. -/
theorem conj_renumber (collection : Value) (additions : List Value) :
    conj (collection.renumber numbering) (additions.map (renumber numbering)) =
      renumberResult numbering (renumber numbering) (conj collection additions) := by
  cases collection with
  | nil =>
    change conj .nil _ = _
    simp [conj, renumberResult]
  | list | vector => simp [conj, renumberResult]
  | set elements =>
    rw [Value.renumber_set, conj, Value.foldl_adjoin_renumber, conj, renumberResult,
      Value.renumber_set]
  | map entries =>
    rw [Value.renumber_map]
    exact result_bind (conjEntries_renumber entries additions) fun _ =>
      congrArg Except.ok (Value.renumber_map _).symm
  | _ => rfl

/-- An element at an index, or the default, which is renumbered with the elements. -/
theorem nth_renumber (collection index : Value) (default? : Option Value) :
    nth (collection.renumber numbering) (index.renumber numbering)
        (default?.map (renumber numbering)) =
      renumberResult numbering (renumber numbering) (nth collection index default?) := by
  refine result_bind (elementsOf_renumber collection) fun elements => ?_
  cases index with
  | integer i =>
    have found : (if i < 0 then none else (elements.map (renumber numbering))[i.toInt.toNat]?).or
        (default?.map (renumber numbering)) =
          ((if i < 0 then none else elements[i.toInt.toNat]?).or default?).map
            (renumber numbering) := by
      split <;> simp [Option.map_or]
    dsimp only [renumber]
    rw [found, List.length_map]
    cases (if i < 0 then none else elements[i.toInt.toNat]?).or default? <;> rfl
  | _ => rfl

theorem concat_renumber (values : List Value) :
    concat (values.map (renumber numbering)) =
      renumberResult numbering (List.map (renumber numbering)) (concat values) := by
  induction values with
  | nil => rfl
  | cons value rest ih =>
    refine result_bind (elementsOf_renumber value) fun elements => ?_
    exact result_bind ih fun others => congrArg Except.ok List.map_append.symm

theorem pairs_renumber (values : List Value) :
    pairs (values.map (renumber numbering)) = (pairs values).map (renumberEntry numbering) := by
  match values with
  | [] | [_] => rfl
  | key :: item :: rest =>
    exact congrArg (renumberEntry numbering (key, item) :: ·) (pairs_renumber rest)

/-- Arguments are paired before they are made into entries, and renumbering commutes with both. -/
theorem hashMap_renumber (args : List Value) :
    hashMap (args.map (renumber numbering)) =
      renumberResult numbering (renumber numbering) (hashMap args) := by
  rw [hashMap, hashMap, List.length_map]
  split
  · rw [pairs_renumber, Value.mapOf_renumber]
    rfl
  · rfl

theorem nameText_renumber (value : Value) :
    nameText (value.renumber numbering) = renumberResult numbering id (nameText value) := by
  cases value <;> rfl

theorem qualifiedText_renumber (qualifier name : Value) :
    qualifiedText (qualifier.renumber numbering) (name.renumber numbering) =
      renumberResult numbering id (qualifiedText qualifier name) := by
  cases qualifier with
  | nil => exact nameText_renumber name
  | _ =>
    refine result_bind (nameText_renumber _) fun _ => ?_
    exact result_bind (nameText_renumber name) fun _ => rfl

theorem baseName_renumber (value : Value) :
    baseName (value.renumber numbering) =
      renumberResult numbering (renumber numbering) (baseName value) := by
  cases value <;> rfl

/-- Names are texts, so all that is asked of them stays the same. -/
theorem qualifierOf_renumber (value : Value) :
    qualifierOf (value.renumber numbering) =
      renumberResult numbering (renumber numbering) (qualifierOf value) := by
  cases value with
  | symbol s | keyword s =>
    simp only [renumber, qualifierOf]
    split <;> rfl
  | _ => rfl

/-- What is joined of a value is a string or its display, which shows no identity. -/
theorem joinedText_renumber (value : Value) :
    joinedText (value.renumber numbering) = joinedText value := by
  cases value with
  | nil | string => rfl
  | _ => exact Value.display_renumber _

theorem gensymStart_renumber (value : Value) :
    gensymStart (value.renumber numbering) = renumberResult numbering id (gensymStart value) := by
  cases value <;> rfl

end ScriptLisp.Eval
