import ScriptLisp.Proofs.Target.Identifier
import ScriptLisp.Proofs.Target.Sign

/-!
Receivers in JavaScript. A `.`, a call or an index binds closer than an operator before its operand,
so the text it stands behind must not begin with such an operator. Most texts stand in brackets of
their own. A sign before a single operand does not, and neither does negative zero, which is not
less than zero; a name is written as it is, and what starts with its receiver begins as that does.

* `Decimal.lt_zero_of_bits`, `head_decimalText`: the only decimal whose text starts with a sign.
* `beginsUnary`: texts that begin with an operator before an operand.
* `Receives`: the part of a node that a `.`, a call or an index is written behind.
* `receiver_beginsUnary_iff`: the receivers that begin with an operator are those of `Exposed`.
-/

namespace ScriptLisp

/-! ### Decimals below zero -/

namespace Decimal

open Float.Model Float.Model.UnpackedFloat

/-- The fields of a double, as parts of the number that its bits are. -/
theorem toNat_fields (b : BitVec Format.binary64.numBits) :
    (unpackMantissa b).toNat = b.toNat % pow2 52 ∧
      (unpackExponent b).toNat = b.toNat / pow2 52 % pow2 11 ∧
      (unpackSign b).toNat = b.toNat / pow2 63 % 2 := by
  refine ⟨rfl, ?_, ?_⟩
  · change b.toNat >>> 52 % pow2 11 = _
    rw [Nat.shiftRight_eq_div_pow]
    rfl
  · change b.toNat >>> 63 % 2 = _
    rw [Nat.shiftRight_eq_div_pow]
    rfl

/-- The bits above those of negative zero, up to negative infinity, are less than zero. -/
theorem compare_unpack_zero {b : BitVec Format.binary64.numBits} (above : pow2 63 < b.toNat)
    (bounded : b.toNat ≤ pow2 63 + Binary.infinityBits) :
    (UnpackedFloat.unpack .binary64 b).compare (.zero .positive) = some .lt := by
  obtain ⟨mantissa, exponent, sign⟩ := toNat_fields b
  -- the powers of two as numbers
  change _ = b.toNat % 4503599627370496 at mantissa
  change _ = b.toNat / 4503599627370496 % 2048 at exponent
  change _ = b.toNat / 9223372036854775808 % 2 at sign
  change 9223372036854775808 < b.toNat at above
  change b.toNat ≤ 9223372036854775808 + 2047 * 4503599627370496 at bounded
  have signed : unpackSign b = 1#1 := by
    refine BitVec.eq_of_toNat_eq (sign.trans ?_)
    change _ = 1
    omega
  have negative : Sign.ofBitVec (unpackSign b) = .negative := by
    rw [signed]
    rfl
  delta UnpackedFloat.unpack
  dsimp only
  rw [negative]
  by_cases full : unpackExponent b = -1#11
  · have filled : b.toNat / 4503599627370496 % 2048 = 2047 := by
      rw [← exponent, full]
      rfl
    have empty : unpackMantissa b = 0#52 := by
      refine BitVec.eq_of_toNat_eq (mantissa.trans ?_)
      change _ = 0
      omega
    rw [if_pos full, if_pos empty]
    rfl
  · rw [if_neg full]
    by_cases least : unpackExponent b = 0#11
    · have zero : b.toNat / 4503599627370496 % 2048 = 0 := by
        rw [← exponent, least]
        rfl
      have filled : unpackMantissa b ≠ 0#52 := by
        intro empty
        have zeroToo : b.toNat % 4503599627370496 = 0 := by
          rw [← mantissa, empty]
          rfl
        omega
      rw [if_pos least, dif_neg filled]
      rfl
    · rw [if_neg least]
      rfl

theorem lt_zero_of_bits {d : Float} (above : pow2 63 < d.toBits.toNat)
    (bounded : d.toBits.toNat ≤ pow2 63 + Binary.infinityBits) : d < 0.0 := by
  have below : d.toModel.unpack.compare (.zero .positive) = some .lt :=
    compare_unpack_zero (b := d.toBits.toBitVec) above bounded
  change decide (d.toModel < (0.0 : Float).toModel) = true
  rw [decide_eq_true_iff]
  change (d.toModel.unpack.compare (.zero .positive) == some .lt) = true
  rw [below]
  rfl

end Decimal

namespace JavaScript

open Target Decimal

/-! ### The start of a text -/

/-- The marks that are operators before an operand. -/
def unaryMarks : List Char :=
  ['+', '-', '!', '~']

/-- The words that are operators before an operand. -/
def unaryWords : List String :=
  ["typeof", "void", "delete", "await"]

/-- A character that a word goes on with. -/
def isWordPart (c : Char) : Bool :=
  Spelling.isWordChar c || c == '$'

/-- Whether a text begins with an operator before an operand. -/
def beginsUnary (text : String) : Bool :=
  text.toList.head?.any unaryMarks.contains ||
    unaryWords.contains (String.ofList (text.toList.takeWhile isWordPart))

/-- Whether a text starts with a character that no operator before an operand starts with. -/
def startsApart (text : String) : Bool :=
  text.toList.head?.any fun c =>
    !unaryMarks.contains c && unaryWords.all (·.toList.head? != some c)

theorem not_beginsUnary_of_startsApart {text : String} (apart : startsApart text = true) :
    beginsUnary text = false := by
  unfold startsApart at apart
  unfold beginsUnary
  cases written : text.toList with
  | nil => simp [written] at apart
  | cons c rest =>
    simp only [written, List.head?_cons, Option.any_some, Bool.and_eq_true,
      Bool.not_eq_true'] at apart
    obtain ⟨noMark, noWord⟩ := apart
    rw [List.head?_cons, Option.any_some, noMark, Bool.false_or, Bool.eq_false_iff]
    intro word
    have other := List.all_eq_true.mp noWord _ (List.contains_iff_mem.mp word)
    rw [String.toList_ofList, List.takeWhile_cons] at other
    split at other
    · simp at other
    · next stops =>
      rw [List.takeWhile_cons_of_neg stops] at word
      exact absurd word (by decide)

theorem startsApart_append {a : String} (apart : startsApart a = true) (b : String) :
    startsApart (a ++ b) = true := by
  unfold startsApart at apart ⊢
  cases written : a.toList with
  | nil => simp [written] at apart
  | cons c rest => simpa [written] using apart

/-- What follows a word does not change how the text begins. -/
theorem beginsUnary_append (text : String) {rest : String} {c : Char}
    (follows : rest.toList.head? = some c) (noMark : unaryMarks.contains c = false)
    (noWord : isWordPart c = false) : beginsUnary (text ++ rest) = beginsUnary text := by
  have stops : Reader.StopsAt isWordPart rest.toList := by
    intro d starts
    cases follows.symm.trans starts
    exact noWord
  unfold beginsUnary
  rw [String.toList_append, stops.takeWhile_append]
  congr 1
  cases written : text.toList with
  | nil =>
    rw [List.nil_append, follows, Option.any_some, noMark]
    rfl
  | cons d more => rfl

/-- A text that starts with a digit starts with no operator. -/
theorem startsApart_of_isDigit {text : String} {c : Char} (starts : text.toList.head? = some c)
    (digit : c.isDigit = true) : startsApart text = true := by
  have other : ∀ d, d.isDigit = false → ¬ c = d ∧ ¬ d = c := by
    intro d noDigit
    refine ⟨?_, ?_⟩ <;> rintro rfl <;> simp [digit] at noDigit
  rw [startsApart, starts]
  simp (disch := decide) [unaryMarks, unaryWords, other]

theorem startsApart_integerText (n : Int64) : startsApart (integerText n) = true := by
  rcases integerText_cases n with ⟨d, ds, starts, digit, -⟩ | ⟨ds, written, -⟩
  · exact startsApart_of_isDigit (by rw [starts, List.head?_cons]) digit
  · simp [startsApart, written, unaryMarks, unaryWords]

/-- The bits after those of infinity are those of no magnitude. -/
theorem ofBits?_eq_none {bits : Nat} (above : Binary.infinityBits < bits) :
    Binary.ofBits? bits = none := by
  have field : 2047 ≤ bits / pow2 52 :=
    (Nat.le_div_iff_mul_le (by decide)).mpr (Nat.le_of_lt above)
  unfold Binary.ofBits?
  rw [if_neg (by omega), if_neg (by omega)]

/-- Without a sign, and for what is no number, the text of a decimal starts with no operator. -/
theorem startsApart_text {d : Float}
    (apart : d.toBits.toNat < pow2 63 ∨ pow2 63 + Binary.infinityBits < d.toBits.toNat) :
    startsApart (Decimal.text d) = true := by
  simp only [Decimal.text]
  rcases apart with unsigned | above
  · rw [if_neg (Nat.not_le_of_lt unsigned)]
    split
    · next b _ =>
      obtain ⟨c, rest, written, digit⟩ := Delimiters.magnitude_head b
      exact startsApart_of_isDigit (c := c) (by simp [written]) digit
    · split
      · rfl
      · rfl
  · have bounded : d.toBits.toNat < 2 ^ 64 := d.toBits.toNat_lt
    have magnitude : Binary.infinityBits < d.toBits.toNat % pow2 63 := by
      change 2 ^ 63 + Binary.infinityBits < d.toBits.toNat at above
      change Binary.infinityBits < d.toBits.toNat % 2 ^ 63
      omega
    rw [ofBits?_eq_none magnitude, if_neg (Nat.ne_of_gt magnitude)]
    change startsApart style.notANumber = true
    rfl

/-- Negative zero is the only decimal whose text begins with a sign. -/
theorem beginsUnary_decimalText (d : Float) :
    beginsUnary (decimalText d) = true ↔ d.toBits.toNat = pow2 63 := by
  constructor
  · intro begins
    by_contra other
    suffices startsApart (decimalText d) = true by
      simp [not_beginsUnary_of_startsApart this] at begins
    unfold decimalText
    split
    · exact startsApart_append (startsApart_append rfl _) _
    · next notBelow =>
      refine startsApart_text ?_
      by_contra within
      rw [not_or, Nat.not_lt, Nat.not_lt] at within
      exact notBelow (lt_zero_of_bits (by omega) within.2)
  · intro same
    have bits : d.toBits = 0x8000000000000000 := UInt64.toNat_inj.mp same
    have negativeZero : d = Float.ofBits 0x8000000000000000 := by
      obtain ⟨⟨_, _⟩⟩ := d
      cases bits
      rfl
    have written : decimalText d = "-0.0" := by
      rw [negativeZero]
      rfl
    rw [written]
    rfl

/-! ### Receivers -/

/-- The part of a node that a `.`, a call or an index is written behind, after the text that stands
before it. -/
inductive Receives : String → Node → Node → Prop
  | method {object : Node} {method : Variable} {args : List Node} :
      Receives "" (.methodResolution object method args) object
  | property {object : Node} {property : Variable} :
      Receives "" (.propertyResolution object property) object
  | call {invocable : Node} {args : List Node} {tail : Bool}
      (written : inlined? invocable (textsOf args) = none) :
      Receives "" (.application invocable args tail) invocable
  | element {array index : Node} {tail : Bool} :
      Receives "" (.application (.reference ⟨none, "aget"⟩) [array, index] tail) array
  | update {array index value : Node} {tail : Bool} :
      Receives "(" (.application (.reference ⟨none, "aset"⟩) [array, index, value] tail) array

/-- The nodes whose text begins with an operator before an operand: names that do, negative zero, a
sign before a single operand, and what begins with such a node. -/
inductive Exposed : Node → Prop
  | name {name : Variable} (begins : beginsUnary (variableText name) = true) :
      Exposed (.reference name)
  | negativeZero {d : Float} (bits : d.toBits.toNat = pow2 63) : Exposed (.decimal d)
  | signed {operator : ArithmeticOperator} {operand : Node}
      (sign : operator.sign?.isSome = true) : Exposed (.arithmetic operator [operand])
  | only {operator : ArithmeticOperator} {operand : Node} (noSign : operator.sign? = none)
      (exposed : Exposed operand) : Exposed (.arithmetic operator [operand])
  | behind {whole receiver : Node} (receives : Receives "" whole receiver)
      (exposed : Exposed receiver) : Exposed whole

/-- The receiver is written as an expression, and behind it a `.`, a call or an index. -/
theorem textOf_receiver {lead : String} {whole receiver : Node}
    (receives : Receives lead whole receiver) :
    ∃ c ∈ ['.', '(', '['], ∃ after : String, after.toList.head? = some c ∧
      textOf .expression whole = lead ++ textOf .expression receiver ++ after := by
  cases receives with
  | @method _ method args =>
    refine ⟨'.', by decide, "." ++ method.base ++ "(" ++ commas (textsOf args) ++ ")", by simp, ?_⟩
    simp [textOf, Context.wrap, String.append_assoc]
  | @property _ property =>
    refine ⟨'.', by decide, "." ++ property.base, by simp, ?_⟩
    simp [textOf, Context.wrap, String.append_assoc]
  | @call _ args tail written =>
    refine ⟨'(', by decide, "(" ++ commas (textsOf args) ++ ")", by simp, ?_⟩
    rw [textOf, Context.wrap, applicationText, written]
    simp [callText, String.append_assoc]
  | @element _ index tail =>
    refine ⟨'[', by decide, "[" ++ textOf .expression index ++ "]", by simp, ?_⟩
    simp [textOf, textsOf, Context.wrap, applicationText, inlined?, primitive?,
      String.append_assoc]
  | @update _ index value tail =>
    refine ⟨'[', by decide,
      "[" ++ textOf .expression index ++ "]=" ++ textOf .expression value ++ ")", by simp, ?_⟩
    simp [textOf, textsOf, Context.wrap, applicationText, inlined?, primitive?,
      String.append_assoc]

/-- What is behind a receiver changes nothing about how the text begins. -/
theorem beginsUnary_receiver {whole receiver : Node} (receives : Receives "" whole receiver) :
    beginsUnary (textOf .expression whole) = beginsUnary (textOf .expression receiver) := by
  obtain ⟨c, postfixed, after, follows, written⟩ := textOf_receiver receives
  have apart : ∀ c ∈ ['.', '(', '['], unaryMarks.contains c = false ∧ isWordPart c = false := by
    decide
  rw [written, String.empty_append]
  exact beginsUnary_append _ follows (apart c postfixed).1 (apart c postfixed).2

/-- Sums and differences are written with a sign. -/
theorem beginsUnary_prefixed {operator : ArithmeticOperator} (sign : operator.sign?.isSome = true)
    (operand : String) : beginsUnary (prefixed (arithmeticToken operator) operand) = true := by
  rw [prefixed_eq]
  cases operator with
  | add => split <;> simp [arithmeticToken, beginsUnary, unaryMarks]
  | subtract => split <;> simp [arithmeticToken, beginsUnary, unaryMarks]
  | multiply => cases sign
  | divide => cases sign

theorem beginsUnary_of_exposed {node : Node} (exposed : Exposed node) :
    beginsUnary (textOf .expression node) = true := by
  induction exposed with
  | name begins => rwa [textOf, Context.wrap]
  | negativeZero bits => rwa [textOf, Context.wrap, beginsUnary_decimalText]
  | signed sign => rw [textOf_single, if_pos sign, beginsUnary_prefixed sign]
  | only noSign _ ih => rwa [textOf_single, noSign]
  | behind receives _ ih => rwa [beginsUnary_receiver receives]

/-- A call that is written as something else starts with a bracket or with its first argument. -/
theorem inlined_cases {invocable : Node} {args : List Node} {tail : Bool} {text : String}
    (inlined : inlined? invocable (textsOf args) = some text) :
    startsApart text = true ∨ ∃ array, Receives "" (.application invocable args tail) array := by
  obtain ⟨name, named, inlined⟩ := named_of_inlined inlined
  rw [textsOf_eq_map] at inlined
  unfold primitive? at inlined
  split at inlined
  · next array index written =>
    obtain ⟨array, others, rfl, -, written⟩ := List.map_eq_cons_iff.mp written
    obtain ⟨index, others, rfl, -, written⟩ := List.map_eq_cons_iff.mp written
    rw [named, List.map_eq_nil_iff.mp written]
    exact .inr ⟨array, .element⟩
  all_goals left
  · cases inlined
    simp [startsApart, unaryMarks, unaryWords]
  · cases inlined
    simp [startsApart, unaryMarks, unaryWords]
  · cases inlined
    simp [startsApart, unaryMarks, unaryWords]
  · split at inlined
    · cases inlined
      simp [startsApart, unaryMarks, unaryWords]
    · cases inlined
  · cases inlined
    simp [startsApart, unaryMarks, unaryWords]
  · cases inlined

/-- What stands in brackets or is written as a literal begins with no operator, so that only names,
negative zero, a single operand and receivers are left. -/
theorem exposed_or_part (node : Node) :
    (beginsUnary (textOf .expression node) = true → Exposed node) ∨
      (∃ operator operand, node = .arithmetic operator [operand]) ∨
      ∃ receiver, Receives "" node receiver := by
  have bracketed (apart : startsApart (textOf .expression node) = true)
      (begins : beginsUnary (textOf .expression node) = true) : Exposed node := by
    simp [not_beginsUnary_of_startsApart apart] at begins
  cases node with
  | arithmetic operator args =>
    match args with
    | [] => cases operator <;> exact .inl (bracketed rfl)
    | [operand] => exact .inr (.inl ⟨operator, operand, rfl⟩)
    | first :: second :: others =>
      rw [textOf_chain] at bracketed ⊢
      exact .inl (bracketed (startsApart_append (startsApart_append rfl _) _))
  | methodResolution object method args => exact .inr (.inr ⟨object, .method⟩)
  | propertyResolution object property => exact .inr (.inr ⟨object, .property⟩)
  | application invocable args tail =>
    cases inlined : inlined? invocable (textsOf args) with
    | none => exact .inr (.inr ⟨invocable, .call inlined⟩)
    | some text =>
      have written : textOf .expression (.application invocable args tail) = text := by
        rw [textOf, Context.wrap, applicationText, inlined]
        rfl
      rcases inlined_cases inlined with apart | receives
      · exact .inl (bracketed (written ▸ apart))
      · exact .inr (.inr receives)
  | reference name =>
    left
    rw [textOf, Context.wrap]
    exact .name
  | decimal d =>
    left
    rw [textOf, Context.wrap, beginsUnary_decimalText]
    exact .negativeZero
  | boolean literal =>
    left
    rw [textOf, Context.wrap]
    -- the word `true` starts as `typeof` does
    split
    · exact fun begins => absurd begins (by decide)
    · exact fun begins => absurd begins (by decide)
  | integer literal =>
    rw [textOf, Context.wrap] at bracketed ⊢
    exact .inl (bracketed (startsApart_integerText literal.value))
  | conditional branches otherwise =>
    refine .inl (bracketed ?_)
    rw [textOf, Context.wrap]
    unfold conditionalText
    split <;> simp [startsApart, immediate, unaryMarks, unaryWords]
  | lambda function =>
    refine .inl (bracketed ?_)
    rw [textOf, Context.wrap, lambdaText.eq_def]
    split <;>
      simp [startsApart, standaloneText, functionText, dispatchText, unaryMarks, unaryWords]
  | exceptionHandler body handler cleanup =>
    refine .inl (bracketed ?_)
    rw [textOf]
    simp [startsApart, Context.wrap, tryText, immediate, unaryMarks, unaryWords]
  | _ =>
    exact .inl (bracketed (by simp [startsApart, textOf, Context.throwing, Context.binding,
      Context.nothing, Context.wrap, quoted, loopText, typeText, immediate, unaryMarks,
      unaryWords]))

/-- A receiver is a part of the node. -/
theorem Receives.sizeOf_lt {lead : String} {whole receiver : Node}
    (receives : Receives lead whole receiver) : sizeOf receiver < sizeOf whole := by
  cases receives <;> simp +arith

theorem exposed_of_beginsUnary (node : Node)
    (begins : beginsUnary (textOf .expression node) = true) : Exposed node := by
  rcases exposed_or_part node with exposed | ⟨operator, operand, rfl⟩ | ⟨receiver, receives⟩
  · exact exposed begins
  · cases sign : operator.sign? with
    | some c => exact .signed (by simp [sign])
    | none =>
      rw [textOf_single, sign] at begins
      exact .only sign (exposed_of_beginsUnary operand begins)
  · rw [beginsUnary_receiver receives] at begins
    have smaller := receives.sizeOf_lt
    exact .behind receives (exposed_of_beginsUnary receiver begins)
termination_by sizeOf node

/-- In JavaScript, a `.`, a call or an index is written directly behind the text of its receiver,
wherever the whole stands, and that text begins with an operator before an operand exactly if the
receiver is a name that does, negative zero, a sign before a single operand, or begins with one of
these itself. -/
theorem receiver_beginsUnary_iff {lead : String} {whole receiver : Node}
    (receives : Receives lead whole receiver) (context : Context) :
    ∃ front, emit .expression receiver = .ok front ∧
      (∃ c ∈ ['.', '(', '['], ∃ after : String, after.toList.head? = some c ∧
        emit context whole = .ok (context.wrap (lead ++ front ++ after))) ∧
      (beginsUnary front = true ↔ Exposed receiver) := by
  obtain ⟨c, postfixed, after, follows, written⟩ := textOf_receiver receives
  have wrapped : textOf context whole = context.wrap (textOf .expression whole) := by
    cases receives <;> simp only [textOf, Context.wrap.eq_2]
  refine ⟨_, emit_eq .expression receiver, ⟨c, postfixed, after, follows, ?_⟩,
    exposed_of_beginsUnary receiver, beginsUnary_of_exposed⟩
  rw [emit_eq, wrapped, written]

/-- The negation of `x` as the only operand of a product. -/
def productOfNegated : Node :=
  .arithmetic .multiply [.arithmetic .subtract [.reference ⟨none, "x"⟩]]

/-- Setting the first element of it. -/
def negatedUpdate : Node :=
  .application (.reference ⟨none, "aset"⟩)
    [productOfNegated, .integer ⟨0, 0⟩, .integer ⟨1, 1⟩] false

theorem receiver_beginsUnary_iff_update :
    Receives "(" negatedUpdate productOfNegated ∧
      ∃ front, emit .expression productOfNegated = .ok front ∧ beginsUnary front = true := by
  have receives : Receives "(" negatedUpdate productOfNegated := .update
  obtain ⟨front, written, -, begins⟩ := receiver_beginsUnary_iff receives .result
  exact ⟨receives, front, written, begins.mpr (.only rfl (.signed rfl))⟩

/-- A method of the negation of `x`. -/
def methodOfNegated : Node :=
  .methodResolution (.arithmetic .subtract [.reference ⟨none, "x"⟩]) ⟨none, "f"⟩ []

/-- The method is called on `x`, and its result negated. -/
theorem methodOfNegated_unbracketed :
    Receives "" methodOfNegated (.arithmetic .subtract [.reference ⟨none, "x"⟩]) ∧
      emit .expression methodOfNegated = .ok "-x.f()" ∧
      emit .expression (.arithmetic .subtract [.reference ⟨none, "x"⟩]) = .ok "-x" ∧
      beginsUnary "-x" = true :=
  ⟨.method, by rfl, by rfl, by decide +kernel⟩

end JavaScript

end ScriptLisp
