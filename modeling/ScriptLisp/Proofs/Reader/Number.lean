import Mathlib.Data.List.Induction
import Mathlib.Data.Nat.Digits.Defs
import ScriptLisp.Proofs.Reader.RoundTrip

/-!
Numbers are read exactly or not as numbers. What a token denotes is said here without the reader:
digits stand for their sum with the powers of ten, and a sign for what it makes of that. Whatever is
read as an integer or ratio denotes it. A token whose parts have no words is a symbol if it starts
with a sign, and cannot be read if it does not.

* `Sign`, `digitsValue`: the parts of a token and what they denote.
* `integer?_token`, `rational?_token`: what is made of tokens, whatever follows them.
* `token_of_integer?`, `token_of_rational?`: what they are made of.
* `NoNumber`, `noNumber_of_number?`: what becomes of a token that is no number.
* `numbers_exact`: which tokens are read as which numbers.
-/

namespace ScriptLisp.Reader

open Integer (Fits)

/-! ### What tokens denote -/

/-- What may stand before the digits of a number. -/
inductive Sign where
  | unsigned
  | plus
  | minus
deriving DecidableEq, Repr

namespace Sign

def chars : Sign → List Char
  | unsigned => []
  | plus => ['+']
  | minus => ['-']

def apply : Sign → Nat → Int
  | minus, n => -n
  | _, n => n

end Sign

/-- The number that digits denote. The last digit counts ones. -/
def digitsValue (digits : List Char) : Nat :=
  Nat.ofDigits 10 (digits.reverse.map fun c => c.toNat - '0'.toNat)

theorem ofDigitChars_eq (digits : List Char) :
    Nat.ofDigitChars 10 digits 0 = digitsValue digits := by
  induction digits using List.reverseRecOn with
  | nil => rfl
  | append_singleton digits c ih =>
    rw [Nat.ofDigitChars_append, ih, Nat.ofDigitChars_cons, Nat.ofDigitChars_nil, digitsValue,
      digitsValue, List.reverse_append, List.reverse_singleton, List.singleton_append,
      List.map_cons, Nat.ofDigits_cons, Nat.add_comm]

theorem wholeNumber_eq (sign : Sign) (digits : List Char) :
    Integer.wholeNumber (sign = .minus) digits = sign.apply (digitsValue digits) := by
  rw [Integer.wholeNumber, ofDigitChars_eq]
  cases sign with
  | unsigned | plus | minus => rfl

/-! ### What is made of tokens -/

section Token

variable (sign : Sign) {digits above below rest : List Char}

theorem sign_token (isDigits : IsDigits digits) (rest : List Char) :
    Integer.sign (sign.chars ++ (digits ++ rest)) = (decide (sign = .minus), digits ++ rest) := by
  cases sign with
  | unsigned =>
    obtain ⟨d, ds, rfl, digit⟩ := isDigits.exists_cons
    refine sign_cons_of_ne ?_ ?_ (ds ++ rest)
    · rintro rfl; cases digit
    · rintro rfl; cases digit
  | plus | minus => rfl

theorem integer?_token (isDigits : IsDigits digits) (stops : StopsAt Char.isDigit rest) :
    integer? (sign.chars ++ (digits ++ rest)) =
      (Integer.ofInt? (sign.apply (digitsValue digits))).map fun word => (.integer word, rest) := by
  simp only [integer?, sign_token sign isDigits, digits?_of_isDigits isDigits stops,
    wholeNumber_eq, Option.bind_eq_bind, Option.bind_some, Option.map_eq_bind]
  rfl

theorem rational?_token (isAbove : IsDigits above) (isBelow : IsDigits below)
    (stops : StopsAt Char.isDigit rest) :
    rational? (sign.chars ++ (above ++ '/' :: (below ++ rest))) =
      (Integer.ofInt? (sign.apply (digitsValue above))).bind fun numerator =>
        (Integer.ofInt? (digitsValue below)).map fun denominator =>
          (.rational numerator denominator, rest) := by
  have slash : StopsAt Char.isDigit ('/' :: (below ++ rest)) := .cons (by decide)
  have unsigned : Integer.wholeNumber false below = digitsValue below :=
    wholeNumber_eq .unsigned below
  simp only [rational?, sign_token sign isAbove, digits?_of_isDigits isAbove slash,
    digits?_of_isDigits isBelow stops, wholeNumber_eq, unsigned, Option.bind_eq_bind,
    Option.bind_some, Option.map_eq_bind]
  rfl

/-- Digits without a point after them start no decimal. -/
theorem decimal?_token (isDigits : IsDigits digits) (stops : StopsAt Char.isDigit rest)
    (noPoint : rest.head? ≠ some '.') : decimal? (sign.chars ++ (digits ++ rest)) = none := by
  simp only [decimal?, sign_token sign isDigits, digits?_of_isDigits isDigits stops,
    Option.bind_eq_bind, Option.bind_some]
  split
  · exact absurd rfl noPoint
  · rfl

/-- Digits without a slash after them start no ratio. -/
theorem rational?_token_eq_none (isDigits : IsDigits digits) (stops : StopsAt Char.isDigit rest)
    (noSlash : rest.head? ≠ some '/') : rational? (sign.chars ++ (digits ++ rest)) = none := by
  simp only [rational?, sign_token sign isDigits, digits?_of_isDigits isDigits stops,
    Option.bind_eq_bind, Option.bind_some]
  split
  · exact absurd rfl noSlash
  · rfl

theorem number?_integer (isDigits : IsDigits digits) :
    number? (sign.chars ++ digits) =
      (Integer.ofInt? (sign.apply (digitsValue digits))).map fun word => (.integer word, []) := by
  have noDecimal := decimal?_token sign isDigits .nil (by simp)
  have noRational := rational?_token_eq_none sign isDigits .nil (by simp)
  have integer := integer?_token sign isDigits .nil
  rw [List.append_nil] at noDecimal noRational integer
  rw [number?, noDecimal, noRational, integer, Option.none_or, Option.none_or]
  cases Integer.ofInt? (sign.apply (digitsValue digits)) with
  | none | some => rfl

/-- If a part of a ratio has no word, the digits above the slash are no number either: they run
into the slash. -/
theorem number?_rational (isAbove : IsDigits above) (isBelow : IsDigits below) :
    number? (sign.chars ++ (above ++ '/' :: below)) =
      (Integer.ofInt? (sign.apply (digitsValue above))).bind fun numerator =>
        (Integer.ofInt? (digitsValue below)).map fun denominator =>
          (.rational numerator denominator, []) := by
  have slash : StopsAt Char.isDigit ('/' :: below) := .cons (by decide)
  have noDecimal := decimal?_token sign isAbove slash (by simp)
  have rational := rational?_token sign isAbove isBelow .nil
  have integer := integer?_token sign isAbove slash
  rw [List.append_nil] at rational
  rw [number?, noDecimal, rational, integer, Option.none_or]
  cases Integer.ofInt? (sign.apply (digitsValue above)) with
  | none => rfl
  | some numerator =>
    cases Integer.ofInt? (digitsValue below) with
    | none =>
      have runs : startsInSymbol ('/' :: below) = true :=
        show isSymbolPart '/' = true by decide
      simp [runs]
    | some denominator => rfl

end Token

/-! ### What numbers are made of -/

theorem exists_sign (cs : List Char) :
    ∃ sign : Sign, cs = sign.chars ++ (Integer.sign cs).2 ∧
      (Integer.sign cs).1 = decide (sign = .minus) := by
  rw [Integer.sign.eq_def]
  split
  · exact ⟨.plus, rfl, rfl⟩
  · exact ⟨.minus, rfl, rfl⟩
  · exact ⟨.unsigned, rfl, rfl⟩

theorem token_of_integer? {cs rest : List Char} {word : Int64}
    (taken : integer? cs = some (.integer word, rest)) :
    ∃ (sign : Sign) (digits : List Char), IsDigits digits ∧
      cs = sign.chars ++ (digits ++ rest) ∧ word.toInt = sign.apply (digitsValue digits) := by
  simp only [integer?, Option.bind_eq_bind, Option.bind_eq_some_iff, Option.pure_def,
    Option.some.injEq, Prod.mk.injEq, Form.integer.injEq] at taken
  obtain ⟨⟨digits, after⟩, digitsTaken, word, made, rfl, rfl⟩ := taken
  obtain ⟨sign, start, negative⟩ := exists_sign cs
  obtain ⟨isDigits, unsigned⟩ := isDigits_of_digits? digitsTaken
  refine ⟨sign, digits, isDigits, unsigned ▸ start, ?_⟩
  rw [Integer.toInt_of_ofInt? made, negative, wholeNumber_eq]

theorem token_of_rational? {cs rest : List Char} {numerator denominator : Int64}
    (taken : rational? cs = some (.rational numerator denominator, rest)) :
    ∃ (sign : Sign) (above below : List Char), IsDigits above ∧ IsDigits below ∧
      cs = sign.chars ++ (above ++ '/' :: (below ++ rest)) ∧
      numerator.toInt = sign.apply (digitsValue above) ∧
      denominator.toInt = digitsValue below := by
  simp only [rational?, Option.bind_eq_bind, Option.bind_eq_some_iff] at taken
  obtain ⟨⟨above, after⟩, aboveTaken, taken⟩ := taken
  split at taken
  · rename_i slash
    simp only [Option.bind_eq_some_iff, Option.pure_def, Option.some.injEq, Prod.mk.injEq,
      Form.rational.injEq] at taken
    obtain ⟨⟨below, _⟩, belowTaken, n, madeAbove, d, madeBelow, ⟨rfl, rfl⟩, rfl⟩ := taken
    obtain ⟨sign, start, negative⟩ := exists_sign cs
    obtain ⟨isAbove, unsigned⟩ := isDigits_of_digits? aboveTaken
    obtain ⟨isBelow, lower⟩ := isDigits_of_digits? belowTaken
    refine ⟨sign, above, below, isAbove, isBelow, ?_, ?_, ?_⟩
    · rw [← lower, ← slash, ← unsigned]
      exact start
    · rw [Integer.toInt_of_ofInt? madeAbove, negative, wholeNumber_eq]
    · exact (Integer.toInt_of_ofInt? madeBelow).trans (wholeNumber_eq .unsigned below)
  · cases taken

/-- Integers and ratios are read in their own notations only. -/
theorem integer?_of_number? {cs rest : List Char} {word : Int64}
    (taken : number? cs = some (.integer word, rest)) :
    integer? cs = some (.integer word, rest) := by
  obtain ⟨decimal | rational | integer, -⟩ := number?_cases taken
  · obtain ⟨_, same⟩ := decimal_of_decimal? decimal
    cases same
  · obtain ⟨_, _, same, _⟩ := rational_of_rational? rational
    cases same
  · exact integer

theorem rational?_of_number? {cs rest : List Char} {numerator denominator : Int64}
    (taken : number? cs = some (.rational numerator denominator, rest)) :
    rational? cs = some (.rational numerator denominator, rest) := by
  obtain ⟨decimal | rational | integer, -⟩ := number?_cases taken
  · obtain ⟨_, same⟩ := decimal_of_decimal? decimal
    cases same
  · exact rational
  · obtain ⟨_, same⟩ := integer_of_integer? integer
    cases same

/-- No symbol goes on after a number. -/
theorem apart_of_number? {cs rest : List Char} {form : Form}
    (taken : number? cs = some (form, rest)) : Apart rest := by
  intro c head
  obtain ⟨after, rfl⟩ := List.head?_eq_some_iff.mp head
  exact (number?_cases taken).2

/-! ### What becomes of the others -/

theorem isSymbolStart_of_isDigit {c : Char} (digit : c.isDigit = true) :
    isSymbolStart c = false := by
  have digits : ∀ k < 10, isSymbolStart (Char.ofNat (48 + k)) = false := by decide +kernel
  obtain ⟨least, most⟩ : 48 ≤ c.toNat ∧ c.toNat ≤ 57 := by
    simpa [Char.isDigit, UInt32.le_iff_toNat_le] using digit
  have here := digits (c.toNat - 48) (by omega)
  rwa [Nat.add_sub_cancel' least, Char.ofNat_toNat] at here

/-- A digit is no separator. -/
theorem settled_of_isDigit {c : Char} (digit : c.isDigit = true) (cs : List Char) :
    Settled (c :: cs) := by
  refine ⟨Bool.eq_false_iff.mpr fun separator => ?_, ?_, ?_⟩
  · rw [isSeparator, Bool.or_eq_true, beq_iff_eq] at separator
    rcases separator with blank | rfl
    · have part := isSymbolPart_of_isDigit digit
      rw [isSymbolPart_of_isBlank blank] at part
      cases part
    · cases digit
  · rintro rfl; cases digit
  · rintro rfl; cases digit

/-- A text that starts with a digit and with no number cannot be read. -/
theorem readChars_of_isDigit {c : Char} (digit : c.isDigit = true) {cs : List Char}
    (noNumber : number? (c :: cs) = none) :
    readChars (c :: cs) = .error (.malformed (c :: cs) [⟨c :: cs, .endOfText⟩]) := by
  have noAtom : atom? (c :: cs) = none := by
    have noColon : c ≠ ':' := by rintro rfl; cases digit
    rw [atom?, noNumber, keyword?_cons_of_ne noColon, symbol?, identifier?,
      if_neg (by simp [isSymbolStart_of_isDigit digit])]
    rfl
  have noDatum : ∀ steps, datum (steps + 1) (c :: cs) = .mismatch := by
    intro steps
    unfold datum
    split
    · rename_i same; cases same
    iterate 6
      rename_i same
      cases same
      cases digit
    rw [atomOutcome, noAtom]
  have noElements : elements (bound (c :: cs)) (c :: cs) = .ok ([], c :: cs) := by
    rw [bound, elements, (settled_of_isDigit digit cs).skip_eq]
    simp only [noDatum]
  rw [readChars, noElements]
  rfl

/-- A text of symbol characters that starts with a sign and with no number is a symbol. -/
theorem readChars_of_sign {c : Char} (sign : c = '+' ∨ c = '-') {cs : List Char}
    (parts : ∀ d ∈ cs, isSymbolPart d = true) (noNumber : number? (c :: cs) = none) :
    readChars (c :: cs) = .ok [.symbol (String.ofList (c :: cs))] := by
  have start : isSymbolStart c = true := by
    rcases sign with rfl | rfl
    · decide
    · decide
  have noColon : c ≠ ':' := by
    rintro rfl
    exact absurd start (by decide)
  have unreserved : ∀ text ∈ ["true", "false", "nil"], String.ofList (c :: cs) ≠ text := by
    have heads : ∀ text ∈ ["true", "false", "nil"], text.toList.head? ≠ some c := by
      rcases sign with rfl | rfl
      · decide
      · decide
    rintro text member rfl
    exact heads _ member (by rw [String.toList_ofList, List.head?_cons])
  have symbol : symbolForm (String.ofList (c :: cs)) = .symbol (String.ofList (c :: cs)) := by
    rw [symbolForm, if_neg (unreserved _ (by decide)), if_neg (unreserved _ (by decide)),
      if_neg (unreserved _ (by decide))]
  have taken := StopsAt.nil.takeWhile_eq parts
  have left := StopsAt.nil.dropWhile_eq parts
  rw [List.append_nil] at taken left
  refine readChars_of_datum (.atom ?_)
  rw [atom?, noNumber, keyword?_cons_of_ne noColon, symbol?, identifier?, if_pos start, taken,
    left, ← symbol]
  rfl

/-- What becomes of a token that starts like a number and is none: after a sign it is a symbol, and
without one it cannot be read. -/
def NoNumber (sign : Sign) (token : String) : Prop :=
  if sign = .unsigned then ∃ trail, read token = .error (.malformed token.toList trail)
  else read token = .ok [.symbol token]

theorem noNumber_of_number? (sign : Sign) {digits cs : List Char} (isDigits : IsDigits digits)
    (parts : ∀ c ∈ cs, isSymbolPart c = true)
    (noNumber : number? (sign.chars ++ (digits ++ cs)) = none) :
    NoNumber sign (String.ofList (sign.chars ++ (digits ++ cs))) := by
  have allParts : ∀ c ∈ digits ++ cs, isSymbolPart c = true := by
    refine List.forall_mem_append.mpr ⟨?_, parts⟩
    intro c member
    exact isSymbolPart_of_isDigit (isDigits.2 c member)
  rw [NoNumber, read_ofList, String.toList_ofList]
  cases sign with
  | unsigned =>
    obtain ⟨d, ds, rfl, digit⟩ := isDigits.exists_cons
    exact ⟨_, readChars_of_isDigit digit noNumber⟩
  | plus => exact readChars_of_sign (.inl rfl) allParts noNumber
  | minus => exact readChars_of_sign (.inr rfl) allParts noNumber

/-! ### Exactly -/

theorem read_of_number? {cs : List Char} {form : Form} (taken : number? cs = some (form, [])) :
    read (String.ofList cs) = .ok [form] := by
  rw [read_ofList]
  refine readChars_of_datum (.atom ?_)
  rw [atom?, taken, Option.some_or]

/-- A sign and digits are read as the integer they denote if that has a word, and are no number if
it has none. So are they with a slash and more digits, where the parts are kept as they are. And
whatever starts with an integer or ratio starts with a token that denotes it, which no symbol
character follows. -/
theorem numbers_exact :
    (∀ (sign : Sign) (digits : List Char), IsDigits digits →
      let token := String.ofList (sign.chars ++ digits)
      let number := sign.apply (digitsValue digits)
      (Fits number → ∃ word : Int64, word.toInt = number ∧ read token = .ok [.integer word]) ∧
        (¬ Fits number → NoNumber sign token)) ∧
    (∀ (sign : Sign) (above below : List Char), IsDigits above → IsDigits below →
      let token := String.ofList (sign.chars ++ (above ++ '/' :: below))
      let upper := sign.apply (digitsValue above)
      let lower := digitsValue below
      (Fits upper ∧ Fits lower → ∃ numerator denominator : Int64, numerator.toInt = upper ∧
          denominator.toInt = lower ∧ read token = .ok [.rational numerator denominator]) ∧
        (¬ (Fits upper ∧ Fits lower) → NoNumber sign token)) ∧
    ∀ (cs rest : List Char) (form : Form), number? cs = some (form, rest) →
      (∀ word, form = .integer word → ∃ (sign : Sign) (digits : List Char), IsDigits digits ∧
        cs = sign.chars ++ (digits ++ rest) ∧ word.toInt = sign.apply (digitsValue digits)) ∧
      (∀ numerator denominator, form = .rational numerator denominator →
        ∃ (sign : Sign) (above below : List Char), IsDigits above ∧ IsDigits below ∧
          cs = sign.chars ++ (above ++ '/' :: (below ++ rest)) ∧
          numerator.toInt = sign.apply (digitsValue above) ∧
          denominator.toInt = digitsValue below) ∧
      ∀ c, rest.head? = some c → isSymbolPart c = false := by
  refine ⟨?_, ?_, ?_⟩
  · intro sign digits isDigits
    have taken := number?_integer sign isDigits
    constructor
    · intro fits
      obtain ⟨word, made, exactly⟩ := Integer.exists_of_fits fits
      rw [made] at taken
      exact ⟨word, exactly, read_of_number? taken⟩
    · intro large
      rw [Integer.ofInt?_of_not_fits large] at taken
      have none := noNumber_of_number? sign isDigits (List.forall_mem_nil _)
      rw [List.append_nil] at none
      exact none taken
  · intro sign above below isAbove isBelow
    have taken := number?_rational sign isAbove isBelow
    constructor
    · rintro ⟨fitsAbove, fitsBelow⟩
      obtain ⟨numerator, madeAbove, exactlyAbove⟩ := Integer.exists_of_fits fitsAbove
      obtain ⟨denominator, madeBelow, exactlyBelow⟩ := Integer.exists_of_fits fitsBelow
      rw [madeAbove, madeBelow] at taken
      exact ⟨numerator, denominator, exactlyAbove, exactlyBelow, read_of_number? taken⟩
    · intro large
      -- The slash and the digits after it would go on as a symbol.
      have parts : ∀ c ∈ '/' :: below, isSymbolPart c = true :=
        List.forall_mem_cons.mpr ⟨by decide, fun c member =>
          isSymbolPart_of_isDigit (isBelow.2 c member)⟩
      refine noNumber_of_number? sign isAbove parts (taken.trans ?_)
      by_cases fitsAbove : Fits (sign.apply (digitsValue above))
      · have largeBelow : ¬ Fits (digitsValue below) := fun fits => large ⟨fitsAbove, fits⟩
        rw [Integer.ofInt?_of_not_fits largeBelow]
        simp
      · rw [Integer.ofInt?_of_not_fits fitsAbove]
        rfl
  · intro cs rest form taken
    refine ⟨?_, ?_, apart_of_number? taken⟩
    · rintro word rfl
      exact token_of_integer? (integer?_of_number? taken)
    · rintro numerator denominator rfl
      exact token_of_rational? (rational?_of_number? taken)

/-- The magnitude of the least word is a number after a minus only, also as a part of a ratio. -/
theorem numbers_exact_least :
    (∃ word : Int64, word.toInt = -9223372036854775808 ∧
      read "-9223372036854775808" = .ok [.integer word]) ∧
    read "+9223372036854775808" = .ok [.symbol "+9223372036854775808"] ∧
    (∃ trail, read "9223372036854775808" =
      .error (.malformed "9223372036854775808".toList trail)) ∧
    (∃ numerator denominator : Int64, numerator.toInt = -6 ∧ denominator.toInt = 4 ∧
      read "-6/04" = .ok [.rational numerator denominator]) ∧
    read "+6/9223372036854775808" = .ok [.symbol "+6/9223372036854775808"] ∧
    isSymbolPart ')' = false := by
  have limit : IsDigits "9223372036854775808".toList := ⟨by decide, by decide⟩
  have six : IsDigits ['6'] := ⟨by decide, by decide⟩
  have four : IsDigits ['0', '4'] := ⟨by decide, by decide⟩
  have limitValue : digitsValue "9223372036854775808".toList = 9223372036854775808 := by
    rw [← ofDigitChars_eq]
    decide
  have sixValue : digitsValue ['6'] = 6 := by decide
  have fourValue : digitsValue ['0', '4'] = 4 := by decide
  obtain ⟨integers, ratios, parts⟩ := numbers_exact
  have least := (integers .minus _ limit).1
  have large := (integers .plus _ limit).2
  have unsigned := (integers .unsigned _ limit).2
  have ratio := (ratios .minus _ _ six four).1
  have symbol := (ratios .plus _ _ six limit).2
  rw [limitValue] at least large unsigned symbol
  rw [sixValue] at ratio symbol
  rw [fourValue] at ratio
  have next := (parts ['7', ')'] [')'] (.integer 7) (by rfl)).2.2 ')' rfl
  exact ⟨least (by decide), large (by decide), unsigned (by decide), ratio (by decide),
    symbol (by decide), next⟩

end ScriptLisp.Reader
