import ScriptLisp.Reader.Basic

/-!
Tokens are local: what an atom, a string or a comment takes from a text does not change when more
text follows, as long as the new text does not go on with a symbol. Every reader of an atom looks at
most one character past what it takes, and that character only has to be no part of a symbol.

* `atom?_append`: an atom, or its absence, is the same in a longer text.
* `stringBody_append`: a closed string is the same in a longer text.
* `Remains`, `atom?_remains`, `stringBody_remains`: what is left after a token is a proper end of
  the text.
* `atom?_eq_none`: which characters start no atom; `isSymbolPart_of_isBlank` puts white space among
  them.
-/

namespace ScriptLisp.Reader

/-- What was read, with more text after the rest. -/
def followedBy {α : Type} (more : List Char) (reading : α × List Char) : α × List Char :=
  (reading.1, reading.2 ++ more)

/-! ### Runs of characters -/

/-- Whether a text does not start with a character of a class. -/
def StopsAt (p : Char → Bool) (cs : List Char) : Prop :=
  ∀ c, cs.head? = some c → p c = false

theorem StopsAt.nil {p : Char → Bool} : StopsAt p [] := by
  intro c head
  cases head

theorem StopsAt.cons {p : Char → Bool} {c : Char} {cs : List Char} (outside : p c = false) :
    StopsAt p (c :: cs) := by
  intro d head
  cases head
  exact outside

/-- A run of fewer kinds of characters stops there as well. -/
theorem StopsAt.mono {p q : Char → Bool} {cs : List Char} (stops : StopsAt q cs)
    (within : ∀ c, p c = true → q c = true) : StopsAt p cs := by
  intro c head
  have outside := stops c head
  cases member : p c with
  | false => rfl
  | true => rw [within c member] at outside; exact absurd outside (by simp)

/-- Text after the end of a run does not change what is taken. -/
theorem StopsAt.takeWhile_append {p : Char → Bool} {more : List Char} (stops : StopsAt p more) :
    ∀ cs : List Char, (cs ++ more).takeWhile p = cs.takeWhile p
  | [] => by
    cases more with
    | nil => rfl
    | cons c rest =>
      rw [List.nil_append, List.takeWhile_cons_of_neg (by simp [stops c rfl]), List.takeWhile_nil]
  | c :: cs => by
    rw [List.cons_append, List.takeWhile_cons, List.takeWhile_cons, stops.takeWhile_append cs]

/-- Text after the end of a run is left with the rest. -/
theorem StopsAt.dropWhile_append {p : Char → Bool} {more : List Char} (stops : StopsAt p more) :
    ∀ cs : List Char, (cs ++ more).dropWhile p = cs.dropWhile p ++ more
  | [] => by
    cases more with
    | nil => rfl
    | cons c rest => exact List.dropWhile_cons_of_neg (by simp [stops c rfl])
  | c :: cs => by
    rw [List.cons_append, List.dropWhile_cons, List.dropWhile_cons]
    split
    · exact stops.dropWhile_append cs
    · rfl

theorem StopsAt.takeWhile_eq {p : Char → Bool} {more : List Char} (stops : StopsAt p more)
    {cs : List Char} (all : ∀ c ∈ cs, p c = true) : (cs ++ more).takeWhile p = cs := by
  rw [List.takeWhile_append_of_pos all, ← List.nil_append more, stops.takeWhile_append,
    List.takeWhile_nil, List.append_nil]

theorem StopsAt.dropWhile_eq {p : Char → Bool} {more : List Char} (stops : StopsAt p more)
    {cs : List Char} (all : ∀ c ∈ cs, p c = true) : (cs ++ more).dropWhile p = more := by
  rw [List.dropWhile_append_of_pos all, ← List.nil_append more, stops.dropWhile_append]
  rfl

/-- No symbol goes on in this text. -/
abbrev Apart (cs : List Char) : Prop :=
  StopsAt isSymbolPart cs

theorem isSymbolPart_of_isDigit {c : Char} (digit : c.isDigit = true) : isSymbolPart c = true := by
  simp [isSymbolPart, digit]

theorem isSymbolPart_of_isSymbolStart {c : Char} (start : isSymbolStart c = true) :
    isSymbolPart c = true := by
  simp [isSymbolPart, start]

/-- Text that stands apart does not start with a character of symbols. -/
theorem Apart.ne {c d : Char} {cs : List Char} (apart : Apart (c :: cs))
    (part : isSymbolPart d = true) : c ≠ d := by
  intro same
  have outside := apart c rfl
  rw [same, part] at outside
  exact absurd outside (by simp)

/-- Whether a symbol goes on does not depend on text that stands apart. -/
theorem startsInSymbol_append {more : List Char} (apart : Apart more) :
    ∀ cs : List Char, startsInSymbol (cs ++ more) = startsInSymbol cs
  | [] => by
    cases more with
    | nil => rfl
    | cons c rest => exact apart c rfl
  | _ :: _ => rfl

/-! ### Symbols and keywords -/

/-- Reading an identifier leaves text that stands apart; the same holds of every token below. -/
theorem identifier?_append {more : List Char} (apart : Apart more) (cs : List Char) :
    identifier? (cs ++ more) = (identifier? cs).map (followedBy more) := by
  cases cs with
  | nil =>
    cases more with
    | nil => rfl
    | cons c rest =>
      have noStart := apart.mono (fun _ => isSymbolPart_of_isSymbolStart) c rfl
      simp [identifier?, noStart]
  | cons c cs =>
    simp only [identifier?, List.cons_append, apart.takeWhile_append, apart.dropWhile_append]
    split
    · rfl
    · rfl

theorem symbol?_append {more : List Char} (apart : Apart more) (cs : List Char) :
    symbol? (cs ++ more) = (symbol? cs).map (followedBy more) := by
  rw [symbol?, symbol?, identifier?_append apart, Option.map_map, Option.map_map]
  rfl

theorem keyword?_cons_of_ne {c : Char} (other : c ≠ ':') (cs : List Char) :
    keyword? (c :: cs) = none := by
  rw [keyword?]
  rintro rest ⟨⟩
  exact other rfl

theorem keyword?_append {more : List Char} (apart : Apart more) (cs : List Char) :
    keyword? (cs ++ more) = (keyword? cs).map (followedBy more) := by
  cases cs with
  | nil =>
    cases more with
    | nil => rfl
    | cons c rest => exact keyword?_cons_of_ne (apart.ne (by decide)) rest
  | cons c cs =>
    by_cases colon : c = ':'
    · subst colon
      rw [List.cons_append, keyword?, keyword?, identifier?_append apart, Option.map_map,
        Option.map_map]
      rfl
    · rw [List.cons_append, keyword?_cons_of_ne colon, keyword?_cons_of_ne colon]
      rfl

/-! ### Numbers -/

/-- A run of decimal digits. -/
def IsDigits (digits : List Char) : Prop :=
  digits ≠ [] ∧ ∀ c ∈ digits, c.isDigit = true

theorem IsDigits.exists_cons {digits : List Char} (isDigits : IsDigits digits) :
    ∃ c cs, digits = c :: cs ∧ c.isDigit = true := by
  obtain ⟨nonempty, all⟩ := isDigits
  obtain ⟨c, cs, rfl⟩ := List.exists_cons_of_ne_nil nonempty
  exact ⟨c, cs, rfl, all c List.mem_cons_self⟩

/-- Digits are taken up to the first character that is none. -/
theorem digits?_of_isDigits {digits rest : List Char} (isDigits : IsDigits digits)
    (stops : StopsAt Char.isDigit rest) : digits? (digits ++ rest) = some (digits, rest) := by
  obtain ⟨nonempty, all⟩ := isDigits
  rw [digits?, stops.takeWhile_eq all, stops.dropWhile_eq all]
  split
  · exact absurd rfl nonempty
  · rfl

/-- What is taken as digits are digits from the start of the text. -/
theorem isDigits_of_digits? {cs digits rest : List Char}
    (taken : digits? cs = some (digits, rest)) : IsDigits digits ∧ cs = digits ++ rest := by
  rw [digits?] at taken
  split at taken
  · cases taken
  · rename_i nonempty
    cases taken
    refine ⟨⟨nonempty, fun c member => ?_⟩, List.takeWhile_append_dropWhile.symm⟩
    exact List.all_eq_true.mp List.all_takeWhile c member

/-- Digits are characters of symbols, so they stop where a symbol would. -/
theorem digits?_append {more : List Char} (apart : Apart more) (cs : List Char) :
    digits? (cs ++ more) = (digits? cs).map (followedBy more) := by
  have stops : StopsAt Char.isDigit more := apart.mono fun _ => isSymbolPart_of_isDigit
  rw [digits?, digits?, stops.takeWhile_append, stops.dropWhile_append]
  split
  · rfl
  · rfl

theorem sign_cons_of_ne {c : Char} (noPlus : c ≠ '+') (noMinus : c ≠ '-') (cs : List Char) :
    Integer.sign (c :: cs) = (false, c :: cs) := by
  rw [Integer.sign]
  · rintro rest ⟨⟩
    exact noPlus rfl
  · rintro rest ⟨⟩
    exact noMinus rfl

/-- The sign of a number is at its start. -/
theorem sign_append {more : List Char} (apart : Apart more) (cs : List Char) :
    Integer.sign (cs ++ more) = followedBy more (Integer.sign cs) := by
  cases cs with
  | nil =>
    cases more with
    | nil => rfl
    | cons c rest => exact sign_cons_of_ne (apart.ne (by decide)) (apart.ne (by decide)) rest
  | cons c cs =>
    by_cases plus : c = '+'
    · subst plus; rfl
    · by_cases minus : c = '-'
      · subst minus; rfl
      · rw [List.cons_append, sign_cons_of_ne plus minus, sign_cons_of_ne plus minus]
        rfl

/-- Whether a mark comes next does not depend on what follows. -/
theorem mark_or_not (mark : Char) {more : List Char} (apart : Apart more)
    (part : isSymbolPart mark = true) (cs : List Char) :
    (∃ rest, cs = mark :: rest) ∨
      (∀ rest, cs ≠ mark :: rest) ∧ ∀ rest, cs ++ more ≠ mark :: rest := by
  cases cs with
  | nil =>
    refine .inr ⟨fun _ => by simp, ?_⟩
    rintro rest rfl
    exact apart.ne part rfl
  | cons c cs =>
    by_cases same : c = mark
    · exact .inl ⟨cs, by rw [same]⟩
    · exact .inr ⟨fun _ => by simp [same], fun _ => by simp [same]⟩

theorem integer?_append {more : List Char} (apart : Apart more) (cs : List Char) :
    integer? (cs ++ more) = (integer? cs).map (followedBy more) := by
  simp only [integer?, sign_append apart, digits?_append apart, followedBy]
  cases digits? (Integer.sign cs).2 with
  | none => rfl
  | some reading =>
    simp only [Option.map_some, Option.bind_eq_bind, Option.bind_some, followedBy]
    cases Integer.ofInt? (Integer.wholeNumber (Integer.sign cs).1 reading.1) with
    | none => rfl
    | some value => rfl

theorem rational?_append {more : List Char} (apart : Apart more) (cs : List Char) :
    rational? (cs ++ more) = (rational? cs).map (followedBy more) := by
  simp only [rational?, sign_append apart, digits?_append apart, followedBy]
  cases digits? (Integer.sign cs).2 with
  | none => rfl
  | some reading =>
    obtain ⟨above, rest⟩ := reading
    simp only [Option.map_some, Option.bind_eq_bind, Option.bind_some, followedBy]
    rcases mark_or_not '/' apart (by decide) rest with ⟨rest, rfl⟩ | ⟨noMark, noMarkAfter⟩
    · simp only [List.cons_append, digits?_append apart]
      cases digits? rest with
      | none => rfl
      | some reading =>
        simp only [Option.map_some, Option.bind_some, followedBy]
        cases Integer.ofInt? (Integer.wholeNumber (Integer.sign cs).1 above) with
        | none => rfl
        | some numerator =>
          cases Integer.ofInt? (Integer.wholeNumber false reading.1) with
          | none => simp
          | some denominator => simp [followedBy]
    · split
      · exact absurd ‹_› (noMarkAfter _)
      · rfl

theorem exponent_append {more : List Char} (apart : Apart more) (cs : List Char) :
    exponent (cs ++ more) = followedBy more (exponent cs) := by
  cases cs with
  | nil =>
    cases more with
    | nil => rfl
    | cons c rest =>
      have notMark : ¬ (c = 'e' ∨ c = 'E') := by
        rintro (mark | mark)
        · exact apart.ne (by decide) mark
        · exact apart.ne (by decide) mark
      rw [List.nil_append, exponent, if_neg notMark]
      rfl
  | cons c cs =>
    by_cases mark : c = 'e' ∨ c = 'E'
    · simp only [List.cons_append, exponent, if_pos mark, sign_append apart, digits?_append apart,
        followedBy]
      cases digits? (Integer.sign cs).2 with
      | none => rfl
      | some reading => rfl
    · simp only [List.cons_append, exponent, if_neg mark, followedBy]

/-- Whole digits, a point and digits, and an exponent if there is one. -/
theorem decimal?_append {more : List Char} (apart : Apart more) (cs : List Char) :
    decimal? (cs ++ more) = (decimal? cs).map (followedBy more) := by
  simp only [decimal?, sign_append apart, digits?_append apart, followedBy]
  cases digits? (Integer.sign cs).2 with
  | none => rfl
  | some reading =>
    obtain ⟨whole, rest⟩ := reading
    simp only [Option.map_some, Option.bind_eq_bind, Option.bind_some, followedBy]
    rcases mark_or_not '.' apart (by decide) rest with ⟨rest, rfl⟩ | ⟨noMark, noMarkAfter⟩
    · simp only [List.cons_append, digits?_append apart]
      cases digits? rest with
      | none => rfl
      | some reading =>
        simp only [Option.map_some, Option.bind_some, followedBy, exponent_append apart]
        rfl
    · split
      · exact absurd ‹_› (noMarkAfter _)
      · rfl

/-- The three kinds of numbers in turn, and no symbol may go on behind any of them. -/
theorem number?_append {more : List Char} (apart : Apart more) (cs : List Char) :
    number? (cs ++ more) = (number? cs).map (followedBy more) := by
  rw [number?, number?, decimal?_append apart, rational?_append apart, integer?_append apart,
    ← Option.map_or, ← Option.map_or, Option.filter_map]
  congr 2
  funext reading
  simp [followedBy, startsInSymbol_append apart]

/-- What an atom takes does not depend on a text after it that no symbol goes on in. -/
theorem atom?_append {more : List Char} (apart : Apart more) (cs : List Char) :
    atom? (cs ++ more) = (atom? cs).map (followedBy more) := by
  rw [atom?, atom?, number?_append apart, keyword?_append apart, symbol?_append apart,
    ← Option.map_or, ← Option.map_or]

/-! ### Where atoms start -/

/-- No digits without a digit first. -/
theorem digits?_cons_of_not_digit {c : Char} (noDigit : c.isDigit = false) (cs : List Char) :
    digits? (c :: cs) = none := by
  rw [digits?, List.takeWhile_cons_of_neg (by simp [noDigit])]

/-- A character that starts no symbol, is no digit and no colon starts no atom. -/
theorem atom?_eq_none {c : Char} (noStart : isSymbolStart c = false) (noDigit : c.isDigit = false)
    (noColon : c ≠ ':') (cs : List Char) : atom? (c :: cs) = none := by
  have noPlus : c ≠ '+' := by rintro rfl; exact absurd noStart (by decide)
  have noMinus : c ≠ '-' := by rintro rfl; exact absurd noStart (by decide)
  have noDigits := digits?_cons_of_not_digit noDigit cs
  have noNumber : number? (c :: cs) = none := by
    simp only [number?, decimal?, rational?, integer?, sign_cons_of_ne noPlus noMinus, noDigits]
    rfl
  have noSymbol : symbol? (c :: cs) = none := by
    simp [symbol?, identifier?, noStart]
  rw [atom?, noNumber, keyword?_cons_of_ne noColon, noSymbol]
  rfl

/-- A character of a table is in one of its ranges. -/
theorem exists_mem_of_contains {ranges : Text.Ranges} {c : Char} (held : ranges.contains c = true) :
    ∃ range ∈ ranges, range.1 ≤ c.toNat ∧ c.toNat ≤ range.2 := by
  fun_induction Text.Ranges.contains ranges c with
  | case1 => exact absurd held (by simp)
  | case2 => exact absurd held (by simp)
  | case3 first last rest c above below =>
    exact ⟨(first, last), List.mem_cons_self, Nat.le_of_not_lt above, below⟩
  | case4 first last rest c _ _ ih =>
    obtain ⟨range, member, bounds⟩ := ih held
    exact ⟨range, List.mem_cons_of_mem _ member, bounds⟩

/-- White space is no part of a symbol. -/
theorem isSymbolPart_of_isBlank {c : Char} (blank : Text.isBlank c = true) :
    isSymbolPart c = false := by
  obtain ⟨range, member, above, below⟩ := exists_mem_of_contains blank
  have outside : ∀ range ∈ Text.blankRanges, ∀ k < range.2 + 1 - range.1,
      isSymbolPart (Char.ofNat (range.1 + k)) = false := by
    decide +kernel
  have here := outside range member (c.toNat - range.1) (by omega)
  rwa [Nat.add_sub_cancel' above, Char.ofNat_toNat] at here

/-! ### Atoms take characters -/

/-- `Remains rest cs`: the text `rest` is left of `cs` after at least one character was taken. -/
def Remains (rest cs : List Char) : Prop :=
  rest <:+ cs ∧ rest ≠ cs

namespace Remains

variable {rest start cs : List Char}

/-- An end of a text that is shorter than it. -/
theorem of_length_lt (within : rest <:+ cs) (shorter : rest.length < cs.length) :
    Remains rest cs := by
  refine ⟨within, ?_⟩
  rintro rfl
  exact Nat.lt_irrefl _ shorter

/-- What remains is shorter: this is what recursion on texts needs. -/
theorem length_lt (remains : Remains rest cs) : rest.length < cs.length := by
  obtain ⟨within, other⟩ := remains
  have unequal : rest.length ≠ cs.length := fun same => other (within.eq_of_length same)
  exact Nat.lt_of_le_of_ne within.length_le unequal

theorem behind {c : Char} (within : rest <:+ cs) : Remains rest (c :: cs) :=
  of_length_lt (within.trans (List.suffix_cons c cs)) (Nat.lt_succ_of_le within.length_le)

/-- More text may be taken after some of it was. -/
theorem further (remains : Remains start cs) (within : rest <:+ start) : Remains rest cs :=
  of_length_lt (within.trans remains.1) (Nat.lt_of_le_of_lt within.length_le remains.length_lt)

/-- Text may have been taken before. -/
theorem earlier (remains : Remains rest start) (within : start <:+ cs) : Remains rest cs :=
  of_length_lt (remains.1.trans within) (Nat.lt_of_lt_of_le remains.length_lt within.length_le)

end Remains

/-- Each token below takes a character and leaves an end of the text. -/
theorem digits?_remains {cs : List Char} {reading : List Char × List Char}
    (taken : digits? cs = some reading) : Remains reading.2 cs := by
  obtain ⟨isDigits, split⟩ := isDigits_of_digits? taken
  obtain ⟨c, digits, same, -⟩ := isDigits.exists_cons
  rw [split, same]
  exact .behind (List.suffix_append digits reading.2)

/-- A sign may be missing, so it need not take a character. -/
theorem sign_suffix (cs : List Char) : (Integer.sign cs).2 <:+ cs := by
  rw [Integer.sign.eq_def]
  split
  · exact List.suffix_cons _ _
  · exact List.suffix_cons _ _
  · exact List.suffix_refl _

/-- An exponent may be missing as well. -/
theorem exponent_suffix (cs : List Char) : (exponent cs).2 <:+ cs := by
  cases cs with
  | nil => exact List.suffix_refl _
  | cons mark signed =>
    by_cases power : mark = 'e' ∨ mark = 'E'
    · simp only [exponent, if_pos power]
      cases taken : digits? (Integer.sign signed).2 with
      | none => exact List.suffix_refl _
      | some reading =>
        have afterSign := (digits?_remains taken).earlier (sign_suffix signed)
        exact afterSign.1.trans (List.suffix_cons mark signed)
    · simp only [exponent, if_neg power, List.suffix_refl]

theorem integer?_remains {cs rest : List Char} {form : Form}
    (taken : integer? cs = some (form, rest)) : Remains rest cs := by
  simp only [integer?, Option.bind_eq_bind, Option.bind_eq_some_iff, Option.pure_def,
    Option.some.injEq, Prod.mk.injEq] at taken
  obtain ⟨reading, digitsTaken, _, _, _, rfl⟩ := taken
  exact (digits?_remains digitsTaken).earlier (sign_suffix cs)

theorem rational?_remains {cs rest : List Char} {form : Form}
    (taken : rational? cs = some (form, rest)) : Remains rest cs := by
  simp only [rational?, Option.bind_eq_bind, Option.bind_eq_some_iff] at taken
  obtain ⟨⟨above, after⟩, aboveTaken, taken⟩ := taken
  split at taken
  · rename_i slash
    simp only [Option.bind_eq_some_iff, Option.pure_def, Option.some.injEq, Prod.mk.injEq] at taken
    obtain ⟨below, belowTaken, _, _, _, _, _, rfl⟩ := taken
    subst slash
    have afterSign := (digits?_remains aboveTaken).earlier (sign_suffix cs)
    have afterSlash := afterSign.further (List.suffix_cons '/' _)
    exact afterSlash.further (digits?_remains belowTaken).1
  · exact absurd taken (by simp)

theorem decimal?_remains {cs rest : List Char} {form : Form}
    (taken : decimal? cs = some (form, rest)) : Remains rest cs := by
  simp only [decimal?, Option.bind_eq_bind, Option.bind_eq_some_iff] at taken
  obtain ⟨⟨whole, after⟩, wholeTaken, taken⟩ := taken
  split at taken
  · rename_i point
    simp only [Option.bind_eq_some_iff, Option.pure_def, Option.some.injEq, Prod.mk.injEq] at taken
    obtain ⟨fraction, fractionTaken, _, rfl⟩ := taken
    subst point
    have afterSign := (digits?_remains wholeTaken).earlier (sign_suffix cs)
    have afterPoint := afterSign.further (List.suffix_cons '.' _)
    have afterFraction := afterPoint.further (digits?_remains fractionTaken).1
    exact afterFraction.further (exponent_suffix fraction.2)
  · exact absurd taken (by simp)

theorem identifier?_remains {cs rest : List Char} {text : String}
    (taken : identifier? cs = some (text, rest)) : Remains rest cs := by
  cases cs with
  | nil => exact absurd taken (by simp [identifier?])
  | cons c cs =>
    rw [identifier?] at taken
    split at taken
    · cases taken
      exact .behind (List.dropWhile_suffix isSymbolPart)
    · exact absurd taken (by simp)

/-- A number is read in one of three notations, and no symbol goes on after it. -/
theorem number?_cases {cs rest : List Char} {form : Form}
    (taken : number? cs = some (form, rest)) :
    (decimal? cs = some (form, rest) ∨ rational? cs = some (form, rest) ∨
      integer? cs = some (form, rest)) ∧ startsInSymbol rest = false := by
  rw [number?, Option.filter_eq_some_iff, Option.or_eq_some_iff, Option.or_eq_some_iff] at taken
  obtain ⟨read, apart⟩ := taken
  refine ⟨?_, by simpa using apart⟩
  rcases read with decimal | ⟨-, rational | ⟨-, integer⟩⟩
  · exact .inl decimal
  · exact .inr (.inl rational)
  · exact .inr (.inr integer)

/-- How an atom was read. -/
inductive AtomRead (cs rest : List Char) : Form → Prop
  | decimal {form : Form} (taken : decimal? cs = some (form, rest)) : AtomRead cs rest form
  | rational {form : Form} (taken : rational? cs = some (form, rest)) : AtomRead cs rest form
  | integer {form : Form} (taken : integer? cs = some (form, rest)) : AtomRead cs rest form
  | keyword {name : List Char} {text : String} (colon : cs = ':' :: name)
      (taken : identifier? name = some (text, rest)) : AtomRead cs rest (.keyword text)
  | symbol {text : String} (taken : identifier? cs = some (text, rest)) :
      AtomRead cs rest (symbolForm text)

/-- The cases of an atom that was read, for proofs about all kinds of atoms. -/
theorem atomRead_of_atom? {cs rest : List Char} {form : Form}
    (taken : atom? cs = some (form, rest)) : AtomRead cs rest form := by
  rw [atom?, Option.or_eq_some_iff, Option.or_eq_some_iff] at taken
  rcases taken with number | ⟨-, keyword | ⟨-, symbol⟩⟩
  · obtain ⟨decimal | rational | integer, -⟩ := number?_cases number
    · exact .decimal decimal
    · exact .rational rational
    · exact .integer integer
  · rw [keyword?.eq_def] at keyword
    split at keyword
    · obtain ⟨⟨text, after⟩, taken, same⟩ := Option.map_eq_some_iff.mp keyword
      cases same
      exact .keyword rfl taken
    · cases keyword
  · obtain ⟨⟨text, after⟩, taken, same⟩ := Option.map_eq_some_iff.mp symbol
    cases same
    exact .symbol taken

/-- An atom takes at least one character. -/
theorem atom?_remains {cs rest : List Char} {form : Form}
    (taken : atom? cs = some (form, rest)) : Remains rest cs := by
  cases atomRead_of_atom? taken with
  | decimal decimal => exact decimal?_remains decimal
  | rational rational => exact rational?_remains rational
  | integer integer => exact integer?_remains integer
  | keyword colon named =>
    subst colon
    exact .behind (identifier?_remains named).1
  | symbol named => exact identifier?_remains named

/-! ### Strings -/

/-- A character that is no quote and no backslash stands for itself. -/
theorem stringBody_cons_of_ne {c : Char} (noQuote : c ≠ '"') (noBackslash : c ≠ '\\')
    (cs : List Char) :
    stringBody (c :: cs) = (stringBody cs).map fun (text, rest) => (c :: text, rest) := by
  rw [stringBody]
  · exact noQuote
  · intro backslash; exact absurd backslash noBackslash
  · intro _ _ backslash; exact absurd backslash noBackslash

/-- A closed string is the same in a longer text. -/
theorem stringBody_append {cs text rest : List Char} (more : List Char)
    (closed : stringBody cs = .ok (text, rest)) :
    stringBody (cs ++ more) = .ok (text, rest ++ more) := by
  fun_induction stringBody cs generalizing text rest with
  | case1 => exact absurd closed (by simp)
  | case2 rest' => cases closed; rfl
  | case3 => exact absurd closed (by simp)
  | case4 c cs d unescaped ih =>
    cases inner : stringBody cs with
    | error place => rw [inner] at closed; exact absurd closed (by simp [Except.map])
    | ok reading =>
      obtain ⟨tail, after⟩ := reading
      rw [inner] at closed
      cases closed
      rw [List.cons_append, List.cons_append, stringBody, unescaped, ih inner]
      rfl
  | case5 c cs noEscape => exact absurd closed (by simp)
  | case6 c cs noQuote notLast noEscape ih =>
    have noBackslash : c ≠ '\\' := by
      rintro rfl
      cases cs with
      | nil => exact notLast rfl rfl
      | cons d cs => exact noEscape d cs rfl rfl
    cases inner : stringBody cs with
    | error place => rw [inner] at closed; exact absurd closed (by simp [Except.map])
    | ok reading =>
      obtain ⟨tail, after⟩ := reading
      rw [inner] at closed
      cases closed
      rw [List.cons_append, stringBody_cons_of_ne noQuote noBackslash, ih inner]
      rfl

/-- A string takes at least its closing quote. -/
theorem stringBody_remains {cs text rest : List Char}
    (closed : stringBody cs = .ok (text, rest)) : Remains rest cs := by
  fun_induction stringBody cs generalizing text rest with
  | case1 => exact absurd closed (by simp)
  | case2 => cases closed; exact .behind (List.suffix_refl _)
  | case3 => exact absurd closed (by simp)
  | case4 c cs d unescaped ih =>
    cases inner : stringBody cs with
    | error place => rw [inner] at closed; exact absurd closed (by simp [Except.map])
    | ok reading =>
      rw [inner] at closed
      cases closed
      exact .behind ((ih inner).1.trans (List.suffix_cons c cs))
  | case5 c cs noEscape => exact absurd closed (by simp)
  | case6 c cs noQuote notLast noEscape ih =>
    cases inner : stringBody cs with
    | error place => rw [inner] at closed; exact absurd closed (by simp [Except.map])
    | ok reading =>
      rw [inner] at closed
      cases closed
      exact .behind (ih inner).1

end ScriptLisp.Reader
