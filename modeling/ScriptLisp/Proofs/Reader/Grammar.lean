import ScriptLisp.Proofs.Reader.Token

/-!
The grammar of the notation, written as relations between a text, what it denotes and the rest of
the text, and the proof that reading decides it. A derivation knows no bound and no order of
alternatives, so facts about nested text go by induction over it.

* `Gap`, `Datum`, `Forms`: separators, one form that starts right here, and forms with the
  separators around them.
* `Gap.suffix`, `Datum.remains`, `Forms.suffix`: what is left is an end of the text, and a proper
  one behind a form.
* `gap_of_skip`, `datum_of_matched`, `forms_of_elements`: whatever reading gives is derivable, for
  any bound.
* `Gap.skip_eq`, `Datum.datum_eq`, `Forms.elements_eq`: whatever is derivable is read, once the
  bound is large enough for the text.
* `readChars_eq_ok_iff`: a text reads as some forms exactly when the grammar derives them.
-/

namespace ScriptLisp.Reader

mutual

/-- `Gap cs rest`: the text `cs` starts with separators, and `rest` follows them. -/
inductive Gap : List Char → List Char → Prop
  | done (cs : List Char) : Gap cs cs
  | blank {c : Char} {cs rest : List Char} (separator : isSeparator c = true) (gap : Gap cs rest) :
      Gap (c :: cs) rest
  /-- A comment reaches up to the end of its line, which is white space again. -/
  | comment {cs rest : List Char} (gap : Gap (cs.dropWhile (· != '\n')) rest) :
      Gap (';' :: cs) rest
  /-- A discard mark takes the form after it away. -/
  | discard {cs start after rest : List Char} {form : Form} (before : Gap cs start)
      (datum : Datum start form after) (gap : Gap after rest) : Gap ('#' :: '_' :: cs) rest

/-- `Datum cs form rest`: the text `cs` starts with the form, and `rest` follows it. -/
inductive Datum : List Char → Form → List Char → Prop
  | list {cs rest : List Char} {forms : List Form} (inner : Forms cs forms (')' :: rest)) :
      Datum ('(' :: cs) (.list forms) rest
  | vector {cs rest : List Char} {forms : List Form} (inner : Forms cs forms (']' :: rest)) :
      Datum ('[' :: cs) (.vector forms) rest
  | map {cs rest : List Char} {forms : List Form} (inner : Forms cs forms ('\x7d' :: rest))
      (even : forms.length % 2 = 0) : Datum ('\x7b' :: cs) (.map (Form.pairs forms)) rest
  | set {cs rest : List Char} {forms : List Form} (inner : Forms cs forms ('\x7d' :: rest)) :
      Datum ('#' :: '\x7b' :: cs) (Form.setOf forms) rest
  | quote {cs start rest : List Char} {form : Form} (before : Gap cs start)
      (datum : Datum start form rest) : Datum ('\'' :: cs) (Form.quote form) rest
  | string {cs rest text : List Char} (closed : stringBody cs = .ok (text, rest)) :
      Datum ('"' :: cs) (.string (String.ofList text)) rest
  | atom {cs rest : List Char} {form : Form} (taken : atom? cs = some (form, rest)) :
      Datum cs form rest

/-- `Forms cs forms rest`: the text `cs` starts with the forms, and `rest` follows the separators
after them. -/
inductive Forms : List Char → List Form → List Char → Prop
  | nil {cs rest : List Char} (gap : Gap cs rest) : Forms cs [] rest
  | cons {cs start after rest : List Char} {form : Form} {forms : List Form} (before : Gap cs start)
      (datum : Datum start form after) (others : Forms after forms rest) :
      Forms cs (form :: forms) rest

end

/-! ### What is read is derivable -/

/-- A collection that was read ends in its closing bracket. -/
theorem rest_of_closing {construct : Construct} {close : Char} {start : List Char}
    {reading : Except Trail (List Form × List Char)} {forms : List Form} {rest : List Char}
    (closed : closing construct close start reading = .matched forms rest) :
    reading = .ok (forms, close :: rest) := by
  cases reading with
  | error trail => cases closed
  | ok pair =>
    obtain ⟨elements, after⟩ := pair
    cases after with
    | nil => cases closed
    | cons c after =>
      by_cases same : c = close
      · rw [closing, if_pos same] at closed
        cases closed
        rw [same]
      · rw [closing, if_neg same] at closed
        cases closed

theorem Outcome.map_eq_matched {α β : Type} {f : α → β} {outcome : Outcome α} {value : β}
    {rest : List Char} (matched : outcome.map f = .matched value rest) :
    ∃ inner, outcome = .matched inner rest ∧ f inner = value := by
  cases outcome with
  | matched inner after => cases matched; exact ⟨inner, rfl, rfl⟩
  | mismatch => cases matched
  | failed trail => cases matched

/-- A map that was read has an even number of elements. -/
theorem mapOutcome_eq_matched {outcome : Outcome (List Form)} {form : Form} {rest : List Char}
    (matched : mapOutcome outcome = .matched form rest) :
    ∃ forms, outcome = .matched forms rest ∧ forms.length % 2 = 0 ∧
      form = .map (Form.pairs forms) := by
  cases outcome with
  | matched forms after =>
    by_cases even : forms.length % 2 = 0
    · rw [mapOutcome, if_pos even] at matched
      cases matched
      exact ⟨forms, rfl, even, rfl⟩
    · rw [mapOutcome, if_neg even] at matched
      cases matched
  | mismatch => cases matched
  | failed trail => cases matched

mutual

/-- What is skipped is a gap; by induction on the bound, together with the next two. -/
theorem gap_of_skip {bound : Nat} {cs rest : List Char} (skipped : skip bound cs = .ok rest) :
    Gap cs rest := by
  match bound with
  | 0 => cases skipped; exact .done _
  | bound + 1 =>
    unfold skip at skipped
    split at skipped
    · cases skipped; exact .done _
    · cases skipped; exact .done _
    · rename_i same
      cases same
      exact .comment (gap_of_skip skipped)
    · rename_i same
      cases same
      split at skipped
      · rename_i matched
        obtain ⟨start, before, datum⟩ := datum_of_form matched
        exact .discard before datum (gap_of_skip skipped)
      · cases skipped; exact .done _
      · cases skipped
    · rename_i same
      cases same
      split at skipped
      · rename_i separator
        exact .blank separator (gap_of_skip skipped)
      · cases skipped; exact .done _

theorem datum_of_form {bound : Nat} {cs rest : List Char} {value : Form}
    (matched : form bound cs = .matched value rest) :
    ∃ start, Gap cs start ∧ Datum start value rest := by
  match bound with
  | 0 => cases matched
  | bound + 1 =>
    rw [form] at matched
    split at matched
    · rename_i skipped
      exact ⟨_, gap_of_skip skipped, datum_of_matched matched⟩
    · cases matched

/-- One form that was read has a derivation. -/
theorem datum_of_matched {bound : Nat} {cs rest : List Char} {value : Form}
    (matched : datum bound cs = .matched value rest) : Datum cs value rest := by
  match bound with
  | 0 => cases matched
  | bound + 1 =>
    unfold datum at matched
    split at matched
    · cases matched
    · rename_i same
      cases same
      obtain ⟨forms, closed, rfl⟩ := Outcome.map_eq_matched matched
      exact .list (forms_of_elements (rest_of_closing closed))
    · rename_i same
      cases same
      obtain ⟨forms, closed, rfl⟩ := Outcome.map_eq_matched matched
      exact .vector (forms_of_elements (rest_of_closing closed))
    · rename_i same
      cases same
      obtain ⟨forms, closed, even, rfl⟩ := mapOutcome_eq_matched matched
      exact .map (forms_of_elements (rest_of_closing closed)) even
    · rename_i same
      cases same
      obtain ⟨forms, closed, rfl⟩ := Outcome.map_eq_matched matched
      exact .set (forms_of_elements (rest_of_closing closed))
    · rename_i same
      cases same
      split at matched
      · rename_i inner
        cases matched
        obtain ⟨start, before, datum⟩ := datum_of_form inner
        exact .quote before datum
      · cases matched
      · cases matched
    · rw [stringOutcome] at matched
      split at matched
      · rename_i closed
        cases matched
        exact .string closed
      · cases matched
    · rw [atomOutcome] at matched
      split at matched
      · rename_i taken
        cases matched
        exact .atom taken
      · cases matched

/-- A sequence of forms that was read has a derivation. -/
theorem forms_of_elements {bound : Nat} {cs rest : List Char} {forms : List Form}
    (read : elements bound cs = .ok (forms, rest)) : Forms cs forms rest := by
  match bound with
  | 0 => cases read; exact .nil (.done _)
  | bound + 1 =>
    rw [elements] at read
    split at read
    · cases read
    · rename_i skipped
      have gap := gap_of_skip skipped
      split at read
      · cases read; exact .nil gap
      · cases read
      · rename_i matched
        split at read
        · cases read
        · rename_i others
          cases read
          exact .cons gap (datum_of_matched matched) (forms_of_elements others)

end

/-! ### Where reading stops -/

/-- The characters that start or end something other than an atom. -/
def reserved : List Char :=
  ['(', '[', '\x7b', '#', '\'', '"', ';', ')', ']', '\x7d']

/-- The characters of brackets and marks start no atom. -/
theorem atom?_of_reserved {c : Char} (member : c ∈ reserved) (cs : List Char) :
    atom? (c :: cs) = none := by
  have starts : reserved.all (fun c => !isSymbolStart c && !c.isDigit && c != ':') = true := by
    decide +kernel
  have here := List.all_eq_true.mp starts c member
  simp only [Bool.and_eq_true, Bool.not_eq_true', bne_iff_ne, ne_eq] at here
  exact atom?_eq_none here.1.1 here.1.2 here.2 cs

/-- Blanks and commas start no atom. -/
theorem atom?_of_isSeparator {c : Char} (separator : isSeparator c = true) (cs : List Char) :
    atom? (c :: cs) = none := by
  have noPart : isSymbolPart c = false := by
    rw [isSeparator, Bool.or_eq_true, beq_iff_eq] at separator
    rcases separator with blank | rfl
    · exact isSymbolPart_of_isBlank blank
    · decide +kernel
  refine atom?_eq_none ?_ ?_ ?_ cs
  · exact Bool.eq_false_iff.mpr fun start =>
      absurd (isSymbolPart_of_isSymbolStart start) (by simp [noPart])
  · exact Bool.eq_false_iff.mpr fun digit =>
      absurd (isSymbolPart_of_isDigit digit) (by simp [noPart])
  · rintro rfl
    exact absurd noPart (by decide)

/-- No separator starts here. -/
def Settled : List Char → Prop
  | [] => True
  | c :: cs => isSeparator c = false ∧ c ≠ ';' ∧ (c = '#' → cs.head? ≠ some '_')

/-- The text ends here, or the construct around it does. -/
def Ended : List Char → Prop
  | [] => True
  | c :: _ => c = ')' ∨ c = ']' ∨ c = '\x7d'

/-- A closing bracket is no separator. -/
theorem Ended.settled {cs : List Char} (ended : Ended cs) : Settled cs := by
  cases cs with
  | nil => trivial
  | cons c cs =>
    rcases ended with rfl | rfl | rfl
    · exact ⟨by decide, by decide, fun same => absurd same (by decide)⟩
    · exact ⟨by decide, by decide, fun same => absurd same (by decide)⟩
    · exact ⟨by decide, by decide, fun same => absurd same (by decide)⟩

/-- No form starts where a construct ends. -/
theorem Ended.datum_eq {cs : List Char} (ended : Ended cs) (bound : Nat) :
    datum bound cs = .mismatch := by
  cases bound with
  | zero => rfl
  | succ bound =>
    cases cs with
    | nil => rfl
    | cons c cs =>
      have noAtom : atom? (c :: cs) = none := by
        refine atom?_of_reserved ?_ cs
        rcases ended with rfl | rfl | rfl <;> decide
      rcases ended with rfl | rfl | rfl <;> simp [datum, atomOutcome, noAtom]

/-- Nothing is skipped where no separator starts, whatever the bound. -/
theorem Settled.skip_eq {cs : List Char} (settled : Settled cs) (bound : Nat) :
    skip bound cs = .ok cs := by
  cases bound with
  | zero => rfl
  | succ bound =>
    unfold skip
    split
    · rfl
    · rfl
    · exact absurd rfl settled.2.1
    · exact absurd rfl (settled.2.2 rfl)
    · rw [if_neg (by simp [settled.1])]

/-- Brackets and marks are no separators, unless they start a comment or a discarded form. -/
theorem settled_of_reserved {c : Char} {cs : List Char} (member : c ∈ reserved)
    (noComment : c ≠ ';') (noDiscard : c = '#' → cs.head? ≠ some '_') : Settled (c :: cs) := by
  have noSeparator : reserved.all (fun c => !isSeparator c) = true := by decide +kernel
  have here := List.all_eq_true.mp noSeparator c member
  rw [Bool.not_eq_true'] at here
  exact ⟨here, noComment, noDiscard⟩

theorem not_reserved_of_atom {c : Char} {cs rest : List Char} {form : Form}
    (taken : atom? (c :: cs) = some (form, rest)) : c ∉ reserved := by
  intro member
  rw [atom?_of_reserved member] at taken
  cases taken

/-- Where an atom can be taken, no separator starts. -/
theorem settled_of_atom {cs rest : List Char} {form : Form}
    (taken : atom? cs = some (form, rest)) : Settled cs := by
  cases cs with
  | nil => trivial
  | cons c cs =>
    have notReserved := not_reserved_of_atom taken
    refine ⟨Bool.eq_false_iff.mpr fun separator => ?_, ?_, ?_⟩
    · rw [atom?_of_isSeparator separator] at taken
      cases taken
    · rintro rfl
      exact notReserved (by decide)
    · rintro rfl
      exact absurd (by decide) notReserved

/-- An atom is what is read where one can be taken: no other construct starts there. -/
theorem datum_eq_of_atom {cs rest : List Char} {form : Form}
    (taken : atom? cs = some (form, rest)) (bound : Nat) :
    datum (bound + 1) cs = .matched form rest := by
  unfold datum
  split
  · rename_i same; cases same
  iterate 6 exact absurd (by decide) (not_reserved_of_atom taken)
  rw [atomOutcome, taken]

/-- A form starts where no separator does. -/
theorem Datum.settled {cs rest : List Char} {form : Form} (derived : Datum cs form rest) :
    Settled cs := by
  cases derived with
  | list | vector | map | set | quote | string =>
    exact settled_of_reserved (by decide) (by decide) (by simp)
  | atom taken => exact settled_of_atom taken

/-! ### Derivations take characters -/

mutual

/-- What is left behind a gap is an end of the text. -/
theorem Gap.suffix {cs rest : List Char} (derived : Gap cs rest) : rest <:+ cs := by
  match derived with
  | .done _ => exact List.suffix_refl _
  | .blank _ gap => exact gap.suffix.trans (List.suffix_cons _ _)
  | .comment gap =>
    have within := gap.suffix.trans (List.dropWhile_suffix _)
    exact within.trans (List.suffix_cons _ _)
  | .discard before datum gap =>
    have remains := (datum.remains.further gap.suffix).earlier before.suffix
    exact (Remains.behind (Remains.behind remains.1).1).1

/-- A form takes at least one character, so what is left is a proper end of the text. -/
theorem Datum.remains {cs rest : List Char} {form : Form} (derived : Datum cs form rest) :
    Remains rest cs := by
  match derived with
  | .list inner | .vector inner | .map inner _ =>
    exact .behind ((List.suffix_cons _ _).trans inner.suffix)
  | .set inner =>
    have within := (List.suffix_cons _ _).trans inner.suffix
    exact .behind (Remains.behind within).1
  | .quote before datum => exact .behind (datum.remains.earlier before.suffix).1
  | .string closed => exact .behind (stringBody_remains closed).1
  | .atom taken => exact atom?_remains taken

/-- What is left behind forms is an end of the text. -/
theorem Forms.suffix {cs rest : List Char} {forms : List Form} (derived : Forms cs forms rest) :
    rest <:+ cs := by
  match derived with
  | .nil gap => exact gap.suffix
  | .cons before datum others =>
    exact ((datum.remains.further others.suffix).earlier before.suffix).1

end

theorem Gap.length_le {cs rest : List Char} (derived : Gap cs rest) : rest.length ≤ cs.length :=
  derived.suffix.length_le

theorem Datum.length_lt {cs rest : List Char} {form : Form} (derived : Datum cs form rest) :
    rest.length < cs.length :=
  derived.remains.length_lt

/-! ### What is derivable is read -/

theorem closing_eq (construct : Construct) (close : Char) (start : List Char) (forms : List Form)
    (rest : List Char) :
    closing construct close start (.ok (forms, close :: rest)) = .matched forms rest := by
  rw [closing, if_pos rfl]

/-- Skip first, then read. -/
theorem form_eq {bound : Nat} {cs start rest : List Char} {value : Form}
    (skipped : skip bound cs = .ok start) (matched : datum bound start = .matched value rest) :
    form (bound + 1) cs = .matched value rest := by
  rw [form, skipped]
  exact matched

mutual

/-- Skipping reaches a place where no separator starts, with two steps for each character. -/
theorem Gap.skip_eq {cs rest : List Char} (derived : Gap cs rest) (settled : Settled rest)
    (bound : Nat) (enough : 2 * cs.length + 1 ≤ bound) : skip bound cs = .ok rest := by
  match derived with
  | .done _ => exact settled.skip_eq bound
  | .blank separator gap =>
    rename_i c cs
    obtain ⟨bound, rfl⟩ : ∃ k, bound = k + 1 := ⟨bound - 1, by omega⟩
    have noComment : c ≠ ';' := by rintro rfl; exact absurd separator (by decide)
    have noDiscard : c ≠ '#' := by rintro rfl; exact absurd separator (by decide)
    simp only [List.length_cons] at enough
    rw [skip, if_pos separator]
    · exact gap.skip_eq settled bound (by omega)
    · exact noComment
    · exact fun _ same => absurd same noDiscard
  | .comment gap =>
    rename_i cs
    obtain ⟨bound, rfl⟩ : ∃ k, bound = k + 1 := ⟨bound - 1, by omega⟩
    have := (List.dropWhile_suffix (· != '\n') (l := cs)).length_le
    simp only [List.length_cons] at enough
    rw [skip]
    exact gap.skip_eq settled bound (by omega)
  | .discard before datum gap =>
    have := before.length_le
    have := datum.length_lt
    simp only [List.length_cons] at enough
    obtain ⟨bound, rfl⟩ : ∃ k, bound = k + 2 := ⟨bound - 2, by omega⟩
    rw [skip, form_eq (before.skip_eq datum.settled bound (by omega))
      (datum.datum_eq bound (by omega))]
    exact gap.skip_eq settled (bound + 1) (by omega)

/-- Every derivation of a form is read, if the bound allows for the length of the text. -/
theorem Datum.datum_eq {cs rest : List Char} {form : Form} (derived : Datum cs form rest)
    (bound : Nat) (enough : 2 * cs.length + 1 ≤ bound) : datum bound cs = .matched form rest := by
  obtain ⟨bound, rfl⟩ : ∃ k, bound = k + 1 := ⟨bound - 1, by omega⟩
  match derived with
  | .list inner =>
    simp only [List.length_cons] at enough
    rw [datum, inner.elements_eq (.inl rfl) bound (by omega), closing_eq]
    rfl
  | .vector inner =>
    simp only [List.length_cons] at enough
    rw [datum, inner.elements_eq (.inr (.inl rfl)) bound (by omega), closing_eq]
    rfl
  | .map inner even =>
    simp only [List.length_cons] at enough
    rw [datum, inner.elements_eq (.inr (.inr rfl)) bound (by omega), closing_eq, mapOutcome,
      if_pos even]
  | .set inner =>
    simp only [List.length_cons] at enough
    rw [datum, inner.elements_eq (.inr (.inr rfl)) bound (by omega), closing_eq]
    rfl
  | .quote before inner =>
    have := before.length_le
    simp only [List.length_cons] at enough
    obtain ⟨bound, rfl⟩ : ∃ k, bound = k + 1 := ⟨bound - 1, by omega⟩
    rw [datum, form_eq (before.skip_eq inner.settled bound (by omega))
      (inner.datum_eq bound (by omega))]
  | .string closed => rw [datum, stringOutcome, closed]
  | .atom taken => exact datum_eq_of_atom taken bound

/-- Every derivation of a sequence that ends where a construct ends is read. -/
theorem Forms.elements_eq {cs rest : List Char} {forms : List Form}
    (derived : Forms cs forms rest) (ended : Ended rest) (bound : Nat)
    (enough : 2 * cs.length + 2 ≤ bound) : elements bound cs = .ok (forms, rest) := by
  obtain ⟨bound, rfl⟩ : ∃ k, bound = k + 1 := ⟨bound - 1, by omega⟩
  match derived with
  | .nil gap =>
    rw [elements, gap.skip_eq ended.settled bound (by omega)]
    simp only [ended.datum_eq]
  | .cons before datum others =>
    have := before.length_le
    have := datum.length_lt
    rw [elements, before.skip_eq datum.settled bound (by omega)]
    simp only [datum.datum_eq bound (by omega), others.elements_eq ended bound (by omega)]

end

/-- A text reads as some forms exactly when the grammar derives them. -/
theorem readChars_eq_ok_iff {cs : List Char} {forms : List Form} :
    readChars cs = .ok forms ↔ Forms cs forms [] := by
  constructor
  · intro read
    rw [readChars] at read
    split at read
    · rename_i matched
      cases read
      exact forms_of_elements matched
    · cases read
    · cases read
  · intro derived
    rw [readChars, derived.elements_eq trivial (bound cs) (by rw [bound]; omega)]

end ScriptLisp.Reader
