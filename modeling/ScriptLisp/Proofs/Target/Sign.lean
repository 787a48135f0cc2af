import Mathlib.Data.List.Chain
import ScriptLisp.Proofs.Target.JavaScriptText
import ScriptLisp.Proofs.Text.Cut

/-!
Signs in JavaScript arithmetic. Two equal signs in a row are one token there, which means something
else than a sign after a sign. A sign before a single operand is kept apart from a sign of the
operand by a parenthesis, but between the operands of a longer sum or difference there is none. So
signs fuse exactly where an operand meets the sign of the operator beside it.

* `Fused`, `isChain_intercalate`: fused signs, and where they come from in a chain of operands.
* `leadingSign?`, `trailingSign?`: the sign that the text of an arithmetic node starts or ends with.
* `emit_fused_iff`: the arithmetic nodes with fused signs in their text are those of `Fuses`.
-/

namespace ScriptLisp.Target

/-! ### Fused signs -/

/-- Somewhere in a text, one of the signs stands twice in a row. -/
def Fused (text : String) : Prop :=
  ['-', '-'] <:+: text.toList ∨ ['+', '+'] <:+: text.toList

/-- Two characters that do not become one sign token next to each other. -/
def KeepApart (a b : Char) : Prop :=
  isSign a = true → a ≠ b

/-- No signs are fused exactly if all neighbours keep apart. -/
theorem not_fused_iff {text : String} : ¬ Fused text ↔ text.toList.IsChain KeepApart := by
  rw [List.isChain_iff_forall_rel_of_append_cons_cons]
  constructor
  · rintro unfused a b before after split sign rfl
    have double : [a, a] <:+: text.toList := ⟨before, after, by simp [split]⟩
    rcases Bool.or_eq_true_iff.mp sign with minus | plus
    · rw [beq_iff_eq.mp minus] at double
      exact unfused (.inl double)
    · rw [beq_iff_eq.mp plus] at double
      exact unfused (.inr double)
  · rintro apart (⟨before, after, split⟩ | ⟨before, after, split⟩)
    · exact apart (by simpa using split.symm) rfl rfl
    · exact apart (by simpa using split.symm) rfl rfl

/-- Before a text, a character meets its first one. -/
theorem isChain_cons_iff {c : Char} {text : List Char} :
    (c :: text).IsChain KeepApart ↔
      (isSign c = true → text.head? ≠ some c) ∧ text.IsChain KeepApart := by
  rw [List.isChain_cons]
  refine and_congr_left fun _ => ⟨?_, ?_⟩
  · intro apart sign starts
    exact apart c starts sign rfl
  · rintro apart d starts sign rfl
    exact apart sign starts

/-- A sign between two texts meets the end of the first and the start of the second. -/
theorem isChain_between_iff {a b : List Char} {sign : Char} :
    (a ++ sign :: b).IsChain KeepApart ↔ a.IsChain KeepApart ∧ b.IsChain KeepApart ∧
      (isSign sign = true → a.getLast? ≠ some sign ∧ b.head? ≠ some sign) := by
  rw [List.isChain_append, isChain_cons_iff]
  constructor
  · rintro ⟨first, ⟨start, second⟩, finish⟩
    refine ⟨first, second, fun isSign => ⟨fun ends => ?_, start isSign⟩⟩
    exact finish sign ends sign rfl isSign rfl
  · rintro ⟨first, second, apart⟩
    refine ⟨first, ⟨fun isSign => (apart isSign).2, second⟩, ?_⟩
    rintro c ends d starts isSign rfl
    cases Option.some.inj starts
    exact (apart isSign).1 ends

/-- Texts after each other start as the first one does, if that is not empty. -/
theorem head?_intercalate {token first : String} (rest : List String) (filled : first ≠ "") :
    (token.intercalate (first :: rest)).toList.head? = first.toList.head? := by
  have starts : first.toList ≠ [] := fun empty => filled (String.toList_eq_nil_iff.mp empty)
  cases rest with
  | nil => rw [String.intercalate_singleton]
  | cons second others =>
    rw [String.intercalate_cons_cons, String.toList_append, String.toList_append,
      List.append_assoc, List.head?_append_of_ne_nil _ starts]

/-- In a chain of operands, signs are fused inside of the operands, or a sign between them meets the
end of an operand before it or the start of one after it. -/
theorem isChain_intercalate {token : String} {sign : Char} (spelled : token.toList = [sign])
    {operands : List String} (filled : ∀ text ∈ operands, text ≠ "") :
    (token.intercalate operands).toList.IsChain KeepApart ↔
      (∀ text ∈ operands, text.toList.IsChain KeepApart) ∧
      (isSign sign = true → (∀ text ∈ operands.dropLast, text.toList.getLast? ≠ some sign) ∧
        ∀ text ∈ operands.tail, text.toList.head? ≠ some sign) := by
  induction operands with
  | nil => simp
  | cons first rest ih =>
    obtain ⟨filledFirst, filledRest⟩ := List.forall_mem_cons.mp filled
    cases rest with
    | nil => simp
    | cons second others =>
      -- the sign meets the second operand and not one behind it, since no operand is empty
      have filledSecond : second ≠ "" := filledRest second List.mem_cons_self
      rw [String.intercalate_cons_cons, String.toList_append, String.toList_append, spelled,
        List.append_assoc, List.singleton_append, isChain_between_iff, ih filledRest,
        head?_intercalate others filledSecond]
      simp only [List.forall_mem_cons, List.dropLast_cons_cons, List.tail_cons]
      constructor
      · rintro ⟨chainFirst, ⟨chains, inRest⟩, between⟩
        exact ⟨⟨chainFirst, chains⟩, fun isSign =>
          ⟨⟨(between isSign).1, (inRest isSign).1⟩, (between isSign).2, (inRest isSign).2⟩⟩
      · rintro ⟨⟨chainFirst, chains⟩, apart⟩
        exact ⟨chainFirst, ⟨chains, fun isSign => ⟨(apart isSign).1.2, (apart isSign).2.2⟩⟩,
          fun isSign => ⟨(apart isSign).1.1, (apart isSign).2.1⟩⟩

end ScriptLisp.Target

namespace ScriptLisp

namespace JavaScript

open Target

/-! ### Arithmetic nodes -/

/-- Arithmetic on variables with a name and integers. -/
inductive IsArithmetic : Node → Prop
  | reference {name : Variable} (named : name.base ≠ "") : IsArithmetic (.reference name)
  | integer (literal : Interned Int64) : IsArithmetic (.integer literal)
  | arithmetic {operator : ArithmeticOperator} {args : List Node}
      (each : ∀ arg ∈ args, IsArithmetic arg) : IsArithmetic (.arithmetic operator args)

/-- The sign that the text of arithmetic starts with: that of a variable, or of an operator before
a single operand. -/
def leadingSign? : Node → Option Char
  | .reference name => (variableText name).toList.head?.filter isSign
  | .arithmetic operator [operand] => operator.sign?.or (leadingSign? operand)
  | _ => none

/-- The sign that the text of arithmetic ends with: that of a variable, also behind the operator
before it. -/
def trailingSign? : Node → Option Char
  | .reference name => (variableText name).toList.getLast?.filter isSign
  | .arithmetic operator [operand] =>
    -- a sign before a sign puts a parenthesis behind the operand
    if operator.sign?.isSome && (leadingSign? operand).isSome then none else trailingSign? operand
  | _ => none

/-- Where signs fuse in arithmetic: in a name, or where an operand meets a sign that stands between
it and another one. -/
inductive Fuses : Node → Prop
  | name {name : Variable} (fused : Fused (variableText name)) : Fuses (.reference name)
  | inside {operator : ArithmeticOperator} {args : List Node} {operand : Node}
      (member : operand ∈ args) (fuses : Fuses operand) : Fuses (.arithmetic operator args)
  | after {operator : ArithmeticOperator} {args : List Node} {operand : Node} {sign : Char}
      (member : operand ∈ args.tail) (signed : operator.sign? = some sign)
      (meets : leadingSign? operand = some sign) : Fuses (.arithmetic operator args)
  | before {operator : ArithmeticOperator} {args : List Node} {operand : Node} {sign : Char}
      (member : operand ∈ args.dropLast) (signed : operator.sign? = some sign)
      (meets : trailingSign? operand = some sign) : Fuses (.arithmetic operator args)

/-- Every operator is one character, and only those of sums and differences are signs. -/
theorem arithmeticToken_spelled (operator : ArithmeticOperator) :
    ∃ c, (arithmeticToken operator).toList = [c] ∧
      operator.sign? = (some c).filter isSign := by
  cases operator with
  | add => exact ⟨'+', rfl, rfl⟩
  | subtract => exact ⟨'-', rfl, rfl⟩
  | multiply => exact ⟨'*', rfl, rfl⟩
  | divide => exact ⟨'/', rfl, rfl⟩

/-- The text of an operator on one operand. -/
theorem textOf_single (operator : ArithmeticOperator) (operand : Node) :
    textOf .expression (.arithmetic operator [operand]) =
      if operator.sign?.isSome then
        prefixed (arithmeticToken operator) (textOf .expression operand)
      else textOf .expression operand := by
  rw [textOf, textsOf_eq_map, Context.wrap, List.map_singleton, arithmeticText_single]

/-- The text of an operator on several operands. -/
theorem textOf_chain (operator : ArithmeticOperator) (first second : Node) (others : List Node) :
    textOf .expression (.arithmetic operator (first :: second :: others)) =
      "(" ++ (arithmeticToken operator).intercalate
        ((first :: second :: others).map (textOf .expression)) ++ ")" := by
  rw [textOf, textsOf_eq_map, Context.wrap]
  rfl

theorem toList_parenthesized (text : String) :
    ("(" ++ text ++ ")").toList = '(' :: (text.toList ++ [')']) := by
  simp

/-- A token before an operand is its first character. -/
theorem toList_prefixed {token : String} {c : Char} (spelled : token.toList = [c])
    (operand : String) :
    (prefixed token operand).toList =
      c :: (if isSigned operand then '(' :: (operand.toList ++ [')']) else operand.toList) := by
  rw [prefixed_eq]
  split <;> simp [spelled]

/-- A digit is no sign. -/
theorem isSign_of_isDigit {c : Char} (digit : c.isDigit = true) : isSign c = false := by
  simp only [isSign, Bool.or_eq_false_iff, beq_eq_false_iff_ne]
  refine ⟨?_, ?_⟩
  · rintro rfl
    cases digit
  · rintro rfl
    cases digit

/-- Text without signs neither starts nor ends with one, and has no fused ones. -/
theorem unsigned_text {text : List Char} (unsigned : ∀ c ∈ text, isSign c = false) :
    text.head?.filter isSign = none ∧ text.getLast?.filter isSign = none ∧
      text.IsChain KeepApart := by
  refine ⟨?_, ?_, ?_⟩
  · exact Option.filter_eq_none_iff.mpr fun c starts =>
      by simp [unsigned c (List.mem_of_mem_head? starts)]
  · exact Option.filter_eq_none_iff.mpr fun c ends =>
      by simp [unsigned c (List.mem_of_mem_getLast? ends)]
  · induction text with
    | nil => exact .nil
    | cons c text ih =>
      obtain ⟨first, others⟩ := List.forall_mem_cons.mp unsigned
      rw [isChain_cons_iff, first]
      exact ⟨nofun, ih others⟩

/-- Text in parentheses neither starts nor ends with a sign. -/
theorem parenthesized_text (text : List Char) :
    ('(' :: (text ++ [')'])).head?.filter isSign = none ∧
      ('(' :: (text ++ [')'])).getLast?.filter isSign = none ∧
      (('(' :: (text ++ [')'])).IsChain KeepApart ↔ text.IsChain KeepApart) := by
  refine ⟨rfl, ?_, ?_⟩
  · rw [← List.cons_append, List.getLast?_concat]
    rfl
  · rw [isChain_cons_iff, isChain_between_iff]
    simp [isSign]

/-- The minus sign of a negative integer stands between a parenthesis and its digits. -/
theorem unsigned_integerText (n : Int64) :
    (integerText n).toList.head?.filter isSign = none ∧
      (integerText n).toList.getLast?.filter isSign = none ∧
      (integerText n).toList.IsChain KeepApart := by
  have digits : ∀ c ∈ Nat.toDigits 10 n.toInt.natAbs, isSign c = false :=
    fun c member => isSign_of_isDigit (Reader.isDigit_toDigits _ c member)
  unfold integerText
  split
  · next negative =>
    have below : n.toInt < 0 := Int64.lt_iff_toInt_lt.mp negative
    have written : ("(" ++ Integer.text n ++ ")").toList =
        '(' :: (('-' :: Nat.toDigits 10 n.toInt.natAbs) ++ [')']) := by
      simp [Integer.text, Integer.chars, below]
    obtain ⟨first, last, inside⟩ := parenthesized_text ('-' :: Nat.toDigits 10 n.toInt.natAbs)
    rw [written]
    refine ⟨first, last, inside.mpr (isChain_cons_iff.mpr ⟨fun _ starts => ?_, ?_⟩)⟩
    · exact absurd (digits '-' (List.mem_of_mem_head? starts)) (by decide)
    · exact (unsigned_text digits).2.2
  · next negative =>
    have nonneg : ¬ n.toInt < 0 := fun below => negative (Int64.lt_iff_toInt_lt.mpr below)
    have written : (Integer.text n).toList = Nat.toDigits 10 n.toInt.natAbs := by
      simp [Integer.text, Integer.chars, nonneg]
    rw [written]
    exact unsigned_text digits

/-! ### The ends of a text -/

/-- Arithmetic always has a text. -/
theorem textOf_arithmetic_ne_empty {node : Node} (arithmetic : IsArithmetic node) :
    textOf .expression node ≠ "" := by
  induction arithmetic with
  | @reference name named =>
    rw [textOf, Context.wrap, variableText]
    split <;> simp [named]
  | integer literal =>
    rw [textOf, Context.wrap, integerText]
    split <;> simp [Delimiters.integer_ne_empty]
  | arithmetic each ih =>
    rw [textOf, Context.wrap, textsOf_eq_map]
    exact arithmeticText_ne_empty _ (List.forall_mem_map.mpr ih)

/-- The text of arithmetic starts with its leading sign, if it has one. -/
theorem leadingSign?_eq {node : Node} (arithmetic : IsArithmetic node) :
    leadingSign? node = (textOf .expression node).toList.head?.filter isSign := by
  induction arithmetic with
  | reference named => rw [leadingSign?, textOf, Context.wrap]
  | integer literal =>
    rw [textOf, Context.wrap, (unsigned_integerText literal.value).1]
    rfl
  | @arithmetic operator args each ih =>
    match args with
    | [] => cases operator <;> rfl
    | [operand] =>
      have inner := ih operand List.mem_cons_self
      obtain ⟨c, spelled, sign⟩ := arithmeticToken_spelled operator
      rw [leadingSign?, textOf_single]
      cases signed : operator.sign? with
      | none => simpa using inner
      | some signChar => simp [toList_prefixed spelled, ← sign, signed]
    | first :: second :: others =>
      rw [textOf_chain, toList_parenthesized, (parenthesized_text _).1]
      rfl

/-- The text of arithmetic is signed if the node has a leading sign. -/
theorem isSigned_textOf {node : Node} (arithmetic : IsArithmetic node) :
    isSigned (textOf .expression node) = (leadingSign? node).isSome := by
  rw [leadingSign?_eq arithmetic, isSigned]
  cases (textOf .expression node).toList.head? with
  | none => rfl
  | some c => cases sign : isSign c <;> simp [sign]

/-- The text of arithmetic ends with its trailing sign, if it has one. -/
theorem trailingSign?_eq {node : Node} (arithmetic : IsArithmetic node) :
    trailingSign? node = (textOf .expression node).toList.getLast?.filter isSign := by
  induction arithmetic with
  | reference named => rw [trailingSign?, textOf, Context.wrap]
  | integer literal =>
    rw [textOf, Context.wrap, (unsigned_integerText literal.value).2.1]
    rfl
  | @arithmetic operator args each ih =>
    match args with
    | [] => cases operator <;> rfl
    | [operand] =>
      have isArithmetic := each operand List.mem_cons_self
      have inner := ih operand List.mem_cons_self
      obtain ⟨c, spelled, -⟩ := arithmeticToken_spelled operator
      have filled : (textOf .expression operand).toList ≠ [] := fun empty =>
        textOf_arithmetic_ne_empty isArithmetic (String.toList_eq_nil_iff.mp empty)
      rw [trailingSign?, textOf_single]
      cases signed : operator.sign? with
      | none => simpa using inner
      | some signChar =>
        simp only [Option.isSome_some, Bool.true_and, if_true, toList_prefixed spelled,
          isSigned_textOf isArithmetic]
        split
        · rw [List.getLast?_cons_cons, (parenthesized_text _).2.1]
        · rw [inner, List.getLast?_cons_of_ne_nil filled]
    | first :: second :: others =>
      rw [textOf_chain, toList_parenthesized, (parenthesized_text _).2.1]
      rfl

/-! ### Fused signs in arithmetic -/

/-- Signs fuse in arithmetic where they do in an operand, or where an operand meets the sign of the
operator. -/
theorem fuses_arithmetic_iff {operator : ArithmeticOperator} {args : List Node} :
    Fuses (.arithmetic operator args) ↔ (∃ operand ∈ args, Fuses operand) ∨
      ∃ sign, operator.sign? = some sign ∧
        ((∃ operand ∈ args.dropLast, trailingSign? operand = some sign) ∨
          ∃ operand ∈ args.tail, leadingSign? operand = some sign) := by
  constructor
  · intro fuses
    cases fuses with
    | inside member fuses => exact .inl ⟨_, member, fuses⟩
    | after member signed meets => exact .inr ⟨_, signed, .inr ⟨_, member, meets⟩⟩
    | before member signed meets => exact .inr ⟨_, signed, .inl ⟨_, member, meets⟩⟩
  · rintro (⟨_, member, fuses⟩ | ⟨_, signed, ⟨_, member, meets⟩ | ⟨_, member, meets⟩⟩)
    · exact .inside member fuses
    · exact .before member signed meets
    · exact .after member signed meets

/-- The operands of a chain meet a sign between them with the signs that they start or end with. -/
theorem meets_iff {args : List Node} (each : ∀ arg ∈ args, IsArithmetic arg) {sign : Char}
    (isSign : isSign sign = true) :
    ((∀ text ∈ (args.map (textOf .expression)).dropLast, text.toList.getLast? ≠ some sign) ↔
        ¬ ∃ operand ∈ args.dropLast, trailingSign? operand = some sign) ∧
      ((∀ text ∈ (args.map (textOf .expression)).tail, text.toList.head? ≠ some sign) ↔
        ¬ ∃ operand ∈ args.tail, leadingSign? operand = some sign) := by
  rw [← List.map_dropLast, ← List.map_tail, List.forall_mem_map, List.forall_mem_map]
  constructor
  · push Not
    refine forall₂_congr fun arg member => not_congr ?_
    rw [trailingSign?_eq (each arg (List.dropLast_subset _ member)), Option.filter_eq_some_iff]
    exact (and_iff_left isSign).symm
  · push Not
    refine forall₂_congr fun arg member => not_congr ?_
    rw [leadingSign?_eq (each arg (List.mem_of_mem_tail member)), Option.filter_eq_some_iff]
    exact (and_iff_left isSign).symm

/-- The text of a chain of operands. -/
theorem isChain_chain_iff {operator : ArithmeticOperator} {args : List Node}
    (each : ∀ arg ∈ args, IsArithmetic arg)
    (ih : ∀ arg ∈ args, (textOf .expression arg).toList.IsChain KeepApart ↔ ¬ Fuses arg) :
    ((arithmeticToken operator).intercalate (args.map (textOf .expression))).toList.IsChain
        KeepApart ↔ ¬ Fuses (.arithmetic operator args) := by
  obtain ⟨c, spelled, signed⟩ := arithmeticToken_spelled operator
  have filled : ∀ text ∈ args.map (textOf .expression), text ≠ "" :=
    List.forall_mem_map.mpr fun arg member => textOf_arithmetic_ne_empty (each arg member)
  have inside : (∀ text ∈ args.map (textOf .expression), text.toList.IsChain KeepApart) ↔
      ¬ ∃ operand ∈ args, Fuses operand := by
    rw [List.forall_mem_map]
    push Not
    exact forall₂_congr ih
  rw [isChain_intercalate spelled filled, fuses_arithmetic_iff, inside]
  cases sign : isSign c with
  | false =>
    have none : operator.sign? = none := by rw [signed, Option.filter_some, sign]; rfl
    simp [none]
  | true =>
    have some : operator.sign? = some c := by rw [signed, Option.filter_some, sign]; rfl
    obtain ⟨ends, starts⟩ := meets_iff each sign
    simp only [some, Option.some.injEq, exists_eq_left', true_implies, ends, starts, not_or]

/-- Without a chain, no operand meets a sign. -/
theorem fuses_single_iff {operator : ArithmeticOperator} {operand : Node} :
    Fuses (.arithmetic operator [operand]) ↔ Fuses operand := by
  simp [fuses_arithmetic_iff]

/-- A token before an operand fuses no signs. -/
theorem isChain_prefixed_iff {token : String} {c : Char} (spelled : token.toList = [c])
    {operand : String} :
    (prefixed token operand).toList.IsChain KeepApart ↔ operand.toList.IsChain KeepApart := by
  rw [toList_prefixed spelled, isChain_cons_iff]
  cases signed : isSigned operand with
  | true =>
    rw [if_pos rfl, (parenthesized_text _).2.2]
    simp only [List.head?_cons, and_iff_right_iff_imp]
    rintro - sign same
    cases Option.some.inj same
    cases sign
  | false =>
    rw [if_neg (by decide)]
    simp only [and_iff_right_iff_imp]
    intro _ sign starts
    rw [isSigned, starts, Option.any_some, sign] at signed
    cases signed

/-- No signs are fused in the text of arithmetic exactly if none fuse in it. -/
theorem textOf_isChain_iff {node : Node} (arithmetic : IsArithmetic node) :
    (textOf .expression node).toList.IsChain KeepApart ↔ ¬ Fuses node := by
  induction arithmetic with
  | @reference name named =>
    rw [textOf, Context.wrap, ← not_fused_iff, not_iff_not]
    exact ⟨.name, fun | .name fused => fused⟩
  | integer literal =>
    rw [textOf, Context.wrap]
    exact ⟨fun _ => nofun, fun _ => (unsigned_integerText literal.value).2.2⟩
  | @arithmetic operator args each ih =>
    match args with
    | [] =>
      have single : (textOf .expression (.arithmetic operator [])).toList.IsChain KeepApart := by
        cases operator <;> exact .singleton _
      simp [single, fuses_arithmetic_iff]
    | [operand] =>
      have inner := ih operand List.mem_cons_self
      obtain ⟨c, spelled, -⟩ := arithmeticToken_spelled operator
      rw [textOf_single, fuses_single_iff]
      split
      · exact (isChain_prefixed_iff spelled).trans inner
      · exact inner
    | first :: second :: others =>
      rw [textOf_chain, toList_parenthesized, (parenthesized_text _).2.2]
      exact isChain_chain_iff each ih

/-- A place puts nothing next to arithmetic that signs could fuse with. -/
theorem isChain_wrap_iff (context : Context) (text : String) :
    (context.wrap text).toList.IsChain KeepApart ↔ text.toList.IsChain KeepApart := by
  have ended : (text ++ ";").toList.IsChain KeepApart ↔ text.toList.IsChain KeepApart := by
    have semicolon : (text ++ ";").toList = text.toList ++ ';' :: [] := String.toList_append
    rw [semicolon, isChain_between_iff]
    simp [isSign]
  cases context with
  | topLevel => rfl
  | expression => rfl
  | statement => exact ended
  | result =>
    rw [Context.wrap, String.append_assoc, ← ended]
    simp [isChain_cons_iff, KeepApart, isSign]

/-- In JavaScript, arithmetic on variables and integers has fused signs in its text exactly where
an operand of a sum or difference, behind the first one, starts with the sign of the operator, or
one before the last ends with it, or a name holds them. -/
theorem emit_fused_iff {node : Node} (arithmetic : IsArithmetic node) (context : Context) :
    ∃ text, emit context node = .ok text ∧ (Fused text ↔ Fuses node) := by
  refine ⟨_, emit_eq context node, ?_⟩
  have wrapped : textOf context node = context.wrap (textOf .expression node) := by
    cases arithmetic with
    | reference named => rw [textOf, textOf, Context.wrap.eq_2]
    | integer literal => rw [textOf, textOf, Context.wrap.eq_2]
    | arithmetic each => rw [textOf, textOf, Context.wrap.eq_2]
  rw [← not_iff_not, not_fused_iff, wrapped, isChain_wrap_iff, textOf_isChain_iff arithmetic]

/-- The difference of `a` and the product of nothing but `(- b)`. -/
def negatedInProduct : Node :=
  .arithmetic .subtract [.reference ⟨none, "a"⟩,
    .arithmetic .multiply [.arithmetic .subtract [.reference ⟨none, "b"⟩]]]

theorem emit_fused_iff_negatedInProduct :
    IsArithmetic negatedInProduct ∧
      ∃ text, emit .result negatedInProduct = .ok text ∧ Fused text := by
  have name : ∀ base : String, base ≠ "" → IsArithmetic (.reference ⟨none, base⟩) :=
    fun base named => .reference named
  have negated : IsArithmetic (.arithmetic .subtract [.reference ⟨none, "b"⟩]) :=
    .arithmetic (List.forall_mem_singleton.mpr (name "b" (by decide)))
  have product : IsArithmetic (.arithmetic .multiply
      [.arithmetic .subtract [.reference ⟨none, "b"⟩]]) :=
    .arithmetic (List.forall_mem_singleton.mpr negated)
  have difference : IsArithmetic negatedInProduct :=
    .arithmetic (List.forall_mem_cons.mpr
      ⟨name "a" (by decide), List.forall_mem_singleton.mpr product⟩)
  obtain ⟨text, written, fused⟩ := emit_fused_iff difference .result
  exact ⟨difference, text, written, fused.mpr (.after (List.mem_singleton_self _) rfl rfl)⟩

/-- The sum of `a` and the sum of nothing but `b`. -/
def sumInSum : Node :=
  .arithmetic .add [.reference ⟨none, "a"⟩, .arithmetic .add [.reference ⟨none, "b"⟩]]

/-- The signs of a sum and of a single operand in it are written next to each other. -/
theorem sumInSum_fused :
    IsArithmetic sumInSum ∧ emit .expression sumInSum = .ok "(a++b)" ∧ Fused "(a++b)" := by
  refine ⟨?_, by rfl, .inr ⟨['(', 'a'], ['b', ')'], rfl⟩⟩
  exact .arithmetic (List.forall_mem_cons.mpr ⟨.reference (by decide),
    List.forall_mem_singleton.mpr (.arithmetic (List.forall_mem_singleton.mpr
      (.reference (by decide))))⟩)

end JavaScript

end ScriptLisp
