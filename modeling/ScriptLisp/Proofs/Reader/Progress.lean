import ScriptLisp.Proofs.Reader.Guarded

/-!
Reading makes progress on every text, malformed or not. A form leaves a proper end of the text,
since it takes at least one character, and so do white space, a comment and a discarded form; the
separators in front of a form leave an end of it, which may be all of it. So a repetition is never
where it was before, and separators, forms, brackets, quotes and discards, which go through each
other, end. Reading without a bound, where nothing but the checks for progress could stop it, is
shown to give what reading with a large bound gives, and so to get past all of these checks.

* `piece_cases`, `pieces_eq`, `string_eq`: strings by pieces and strings by characters.
* `separator_blank`, `separator_comment`, `separator_discard`, `separator_of_none`: what is at the
  start of a text, as a separator.
* `skip_of_matched`, `forms_of_matched`, ...: a repetition after one match is the repetition behind
  it; `forms_of_skip`: a form brings the separators before it.
* `skip_eq`, `form_eq`, `datum_eq`, `forms_eq`: by the length of the text, any large bound does.
* `Progressing`, `reading_progresses`: all of this for every text.
-/

namespace ScriptLisp.Reader

namespace Guarded

/-! ### Strings -/

/-- Characters that stand for themselves are kept as they are. -/
theorem stringBody_run {run : List Char} (verbatim : ∀ c ∈ run, isVerbatim c = true)
    (cs : List Char) :
    stringBody (run ++ cs) = (stringBody cs).map fun (text, rest) => (run ++ text, rest) := by
  induction run with
  | nil =>
    rw [List.nil_append]
    cases stringBody cs with
    | error place => rfl
    | ok reading => rfl
  | cons c run ih =>
    obtain ⟨here, behind⟩ := List.forall_mem_cons.mp verbatim
    rw [isVerbatim, Bool.and_eq_true, bne_iff_ne, bne_iff_ne] at here
    rw [List.cons_append, stringBody_cons_of_ne here.1 here.2, ih behind]
    cases stringBody cs with
    | error place => rfl
    | ok reading => rfl

/-- A piece of such characters goes on as far as it can. -/
theorem piece_verbatim {c : Char} (verbatim : isVerbatim c = true) (cs : List Char) :
    piece (c :: cs) = .matched (c :: cs.takeWhile isVerbatim) (cs.dropWhile isVerbatim) := by
  rw [piece]
  · rw [List.takeWhile_cons_of_pos verbatim, List.dropWhile_cons_of_pos verbatim]
  · rintro d rest ⟨⟩
    exact absurd verbatim (by decide)

/-- A string starts with a piece and goes on behind it, or it is closed here, or it can't be
read. -/
theorem piece_cases (cs : List Char) :
    (∃ run rest, piece cs = .matched run rest ∧ rest.length < cs.length ∧
      stringBody cs = (stringBody rest).map fun (text, after) => (run ++ text, after)) ∨
    piece cs = .mismatch ∧ ((∃ after, cs = '"' :: after) ∨
      (∀ after, cs ≠ '"' :: after) ∧ stringBody cs = .error cs) := by
  cases cs with
  | nil => exact .inr ⟨rfl, .inr ⟨by simp, rfl⟩⟩
  | cons c cs =>
    by_cases verbatim : isVerbatim c = true
    · left
      refine ⟨_, _, piece_verbatim verbatim cs, ?_, ?_⟩
      · have := (List.dropWhile_suffix isVerbatim (l := cs)).length_le
        simp only [List.length_cons]
        omega
      · have run : ∀ d ∈ c :: cs.takeWhile isVerbatim, isVerbatim d = true :=
          List.forall_mem_cons.mpr ⟨verbatim, List.all_eq_true.mp List.all_takeWhile⟩
        rw [← stringBody_run run, List.cons_append, List.takeWhile_append_dropWhile]
    · have marked : c = '"' ∨ c = '\\' :=
        Decidable.or_iff_not_imp_left.mpr (by simpa [isVerbatim] using verbatim)
      rcases marked with rfl | rfl
      · exact .inr ⟨rfl, .inl ⟨cs, rfl⟩⟩
      · cases cs with
        | nil => exact .inr ⟨rfl, .inr ⟨by simp, rfl⟩⟩
        | cons d cs =>
          cases unescaped : unescape? d with
          | some meant =>
            left
            refine ⟨[meant], cs, ?_, ?_, ?_⟩
            · rw [piece, unescaped]
            · simp only [List.length_cons]
              omega
            · rw [stringBody, unescaped]
              rfl
          | none =>
            right
            refine ⟨?_, .inr ⟨by simp, ?_⟩⟩
            · rw [piece, unescaped]
            · rw [stringBody, unescaped]

/-- The pieces of a string reach its closing quote, or the place where one was expected. -/
theorem pieces_eq (cs : List Char) : ∃ found rest, pieces cs = some (.ok (found, rest)) ∧
    ((∃ after, rest = '"' :: after ∧ stringBody cs = .ok (found.flatten, after)) ∨
      (∀ after, rest ≠ '"' :: after) ∧ stringBody cs = .error rest) := by
  rcases piece_cases cs with ⟨run, start, here, shorter, goesOn⟩ | ⟨nothing, ends⟩
  · obtain ⟨found, rest, reads, behind⟩ := pieces_eq start
    refine ⟨run :: found, rest, ?_, ?_⟩
    · rw [pieces, repeated_of_matched (congrArg some here) shorter, ← pieces, reads]
      rfl
    · rw [goesOn]
      rcases behind with ⟨after, same, closed⟩ | ⟨noQuote, unclosed⟩
      · exact .inl ⟨after, same, by rw [closed]; rfl⟩
      · exact .inr ⟨noQuote, by rw [unclosed]; rfl⟩
  · refine ⟨[], cs, repeated_of_mismatch (congrArg some nothing), ?_⟩
    rcases ends with ⟨after, rfl⟩ | ends
    · exact .inl ⟨after, rfl, rfl⟩
    · exact .inr ends
termination_by cs.length

/-- A string read piece by piece is the string read character by character. -/
theorem string_eq (start body : List Char) :
    string start body = some (stringOutcome start body) := by
  obtain ⟨found, rest, reads, ⟨after, rfl, closed⟩ | ⟨noQuote, unclosed⟩⟩ := pieces_eq body
  · simp only [string, reads, stringOutcome, closed]
    rfl
  · simp only [string, reads, stringOutcome, unclosed, Option.bind_eq_bind, Option.bind_some]
    rfl

/-! ### Separators -/

/-- Blanks are taken all at once. -/
theorem blanks_of_isSeparator {c : Char} (separates : isSeparator c = true) (cs : List Char) :
    blanks (c :: cs) = .matched () (cs.dropWhile isSeparator) := by
  rw [blanks, List.takeWhile_cons_of_pos separates, List.dropWhile_cons_of_pos separates]

theorem blanks_of_not_isSeparator {c : Char} (other : isSeparator c = false) (cs : List Char) :
    blanks (c :: cs) = .mismatch := by
  rw [blanks, List.takeWhile_cons_of_neg (by simp [other])]

/-- Only a semicolon starts a comment. -/
theorem comment_of_ne {c : Char} (other : c ≠ ';') (cs : List Char) :
    comment (c :: cs) = .mismatch := by
  rw [comment]
  rintro rest ⟨⟩
  exact other rfl

/-- Only its mark starts a discarded form. -/
theorem discard_of_ne {cs : List Char} (other : ∀ rest, cs ≠ '#' :: '_' :: rest) :
    discard cs = some .mismatch := by
  rw [discard]
  exact other

/-- The first alternative of a separator. -/
theorem separator_blank {c : Char} (separates : isSeparator c = true) (cs : List Char) :
    separator (c :: cs) = some (.matched () (cs.dropWhile isSeparator)) := by
  have noMark : ∀ rest, c :: cs ≠ '#' :: '_' :: rest := by
    rintro rest ⟨⟩
    exact absurd separates (by decide)
  rw [separator, blanks_of_isSeparator separates, discard_of_ne noMark]
  rfl

/-- The second one, since a semicolon is not blank. -/
theorem separator_comment (cs : List Char) :
    separator (';' :: cs) = some (.matched () (cs.dropWhile (· != '\n'))) := by
  rw [separator, blanks_of_not_isSeparator (by decide), discard_of_ne (by simp)]
  rfl

/-- The third one: the form is read and dropped. -/
theorem separator_discard (cs : List Char) :
    separator ('#' :: '_' :: cs) = (form cs).map fun outcome => outcome.map fun _ => () := by
  rw [separator, blanks_of_not_isSeparator (by decide), comment_of_ne (by decide), discard]
  cases form cs with
  | none => rfl
  | some outcome => cases outcome <;> rfl

/-- No alternative matches. -/
theorem separator_of_none {c : Char} {cs : List Char} (noBlank : isSeparator c = false)
    (noComment : c ≠ ';') (noMark : ∀ rest, c :: cs ≠ '#' :: '_' :: rest) :
    separator (c :: cs) = some .mismatch := by
  rw [separator, blanks_of_not_isSeparator noBlank, comment_of_ne noComment, discard_of_ne noMark]
  rfl

theorem skip_of_mismatch {cs : List Char} (none : separator cs = some .mismatch) :
    skip cs = some (.ok cs) := by
  rw [skip, repeated_of_mismatch none]
  rfl

theorem skip_of_failed {cs : List Char} {trail : Trail}
    (failed : separator cs = some (.failed trail)) : skip cs = some (.error trail) := by
  rw [skip, repeated_of_failed failed]
  rfl

/-- One round of skipping, since the separator took a character. -/
theorem skip_of_matched {cs rest : List Char} (here : separator cs = some (.matched () rest))
    (shorter : rest.length < cs.length) : skip cs = skip rest := by
  rw [skip, skip, repeated_of_matched here shorter]
  rcases repeated rest fun place _ => separator place with _ | (trail | found)
  · rfl
  · rfl
  · rfl

/-- Where separators end, none starts. -/
theorem skip_of_skip {cs rest : List Char} (skipped : skip cs = some (.ok rest)) :
    skip rest = some (.ok rest) := by
  rw [skip] at skipped
  cases found : repeated cs fun place _ => separator place with
  | none => rw [found] at skipped; cases skipped
  | some result =>
    rw [found] at skipped
    rcases result with trail | ⟨separators, after⟩
    · cases skipped
    · cases skipped
      exact skip_of_mismatch (repeated_ends found).1

/-- Skipping a run of blanks in one step or one by one leads to the same place. -/
theorem skip_dropWhile (cs : List Char) : skip (cs.dropWhile isSeparator) = skip cs := by
  cases cs with
  | nil => rfl
  | cons c cs =>
    by_cases separates : isSeparator c = true
    · have := (List.dropWhile_suffix isSeparator (l := cs)).length_le
      rw [List.dropWhile_cons_of_pos separates, skip_of_matched (separator_blank separates cs)]
      simp only [List.length_cons]
      omega
    · rw [List.dropWhile_cons_of_neg separates]

/-! ### Forms -/

theorem form_of_error {cs : List Char} {trail : Trail} (skipped : skip cs = some (.error trail)) :
    form cs = some (.failed trail) := by
  rw [form, skipped]
  rfl

/-- The guard of the reader is met, since skipping does not go back in the text. -/
theorem form_of_skip {cs start : List Char} (skipped : skip cs = some (.ok start))
    (within : start.length ≤ cs.length) : form cs = datum start := by
  rw [form, skipped]
  exact if_pos within

/-- No further form, and what is between here and the end of the construct is skipped. -/
theorem forms_of_mismatch {cs : List Char} (here : form cs = some .mismatch) :
    forms cs = (skip cs).map fun gap => gap.map fun after => ([], after) := by
  rw [forms, repeated_of_mismatch here]
  simp only [Option.bind_eq_bind, Option.bind_some, Nat.le_refl, if_true]
  cases skip cs with
  | none => rfl
  | some gap => rfl

theorem forms_of_failed {cs : List Char} {trail : Trail} (here : form cs = some (.failed trail)) :
    forms cs = some (.error trail) := by
  rw [forms, repeated_of_failed here]
  rfl

/-- One round of reading forms, since the form took a character. -/
theorem forms_of_matched {cs rest : List Char} {value : Form}
    (here : form cs = some (.matched value rest)) (shorter : rest.length < cs.length) :
    forms cs = (forms rest).map fun others =>
      others.map fun (values, after) => (value :: values, after) := by
  rw [forms, forms, repeated_of_matched here shorter]
  cases found : repeated rest fun place _ => form place with
  | none => rfl
  | some result =>
    rcases result with trail | ⟨values, after⟩
    · rfl
    · have within := (repeated_ends found).2
      simp only [Option.map_some, Except.map, Option.bind_eq_bind, Option.bind_some,
        if_pos within, if_pos (Nat.le_trans within (Nat.le_of_lt shorter))]
      cases skip after with
      | none => rfl
      | some gap => cases gap <;> rfl

/-- Separators in front of the first form may be skipped on their own. -/
theorem forms_of_skip {cs start : List Char} {outcome : Outcome Form}
    (skipped : skip cs = some (.ok start)) (within : start.length ≤ cs.length)
    (here : datum start = some outcome)
    (shorter : ∀ value rest, outcome = .matched value rest → rest.length < start.length) :
    forms start = forms cs := by
  have again := skip_of_skip skipped
  have atStart : form start = some outcome := by
    rw [form_of_skip again (Nat.le_refl _), here]
  have before : form cs = some outcome := by
    rw [form_of_skip skipped within, here]
  cases outcome with
  | mismatch => rw [forms_of_mismatch atStart, forms_of_mismatch before, again, skipped]
  | failed trail => rw [forms_of_failed atStart, forms_of_failed before]
  | matched value rest =>
    have := shorter value rest rfl
    rw [forms_of_matched atStart this, forms_of_matched before (by omega)]

/-! ### The bound does not matter -/

-- A form needs one unit more than the separators and the datum that it consists of, and each
-- character that was taken leaves two units to spare.
mutual

/-- By induction on the length of the text; with enough bound both skip the same. -/
theorem skip_eq (n : Nat) (cs : List Char) (enough : 2 * cs.length + 1 ≤ n) :
    skip cs = some (Reader.skip n cs) := by
  obtain ⟨n, rfl⟩ : ∃ k, n = k + 1 := ⟨n - 1, by omega⟩
  unfold Reader.skip
  split
  · rename_i same
    cases same
  · exact skip_of_mismatch (by simp [separator, discard, blanks, comment, Outcome.orElse])
  · rename_i cs same
    cases same
    have within := (List.dropWhile_suffix (· != '\n') (l := cs)).length_le
    simp only [List.length_cons] at enough
    rw [skip_of_matched (separator_comment cs) (Nat.lt_succ_of_le within)]
    exact skip_eq _ _ (by omega)
  · rename_i cs same
    cases same
    simp only [List.length_cons] at enough
    have discarded := separator_discard cs
    rw [form_eq n _ (by omega)] at discarded
    split
    · rename_i value rest matched
      rw [matched] at discarded
      obtain ⟨start, before, datum⟩ := datum_of_form matched
      have shorter := (datum.remains.earlier before.suffix).length_lt
      rw [skip_of_matched discarded (by simp only [List.length_cons]; omega)]
      exact skip_eq _ _ (by omega)
    · rename_i mismatch
      rw [mismatch] at discarded
      exact skip_of_mismatch discarded
    · rename_i trail failed
      rw [failed] at discarded
      exact skip_of_failed discarded
  · rename_i c cs noComment noMark same
    cases same
    simp only [List.length_cons] at enough
    by_cases separates : isSeparator c = true
    · have within := (List.dropWhile_suffix isSeparator (l := cs)).length_le
      have here := separator_blank separates cs
      rw [if_pos separates, skip_of_matched here (Nat.lt_succ_of_le within), skip_dropWhile]
      exact skip_eq _ _ (by omega)
    · rw [if_neg separates]
      refine skip_of_mismatch (separator_of_none (Bool.eq_false_iff.mpr separates) ?_ ?_)
      · rintro rfl
        exact noComment rfl
      · rintro rest ⟨⟩
        exact noMark rest rfl rfl

/-- A form after what is skipped. -/
theorem form_eq (n : Nat) (cs : List Char) (enough : 2 * cs.length + 2 ≤ n) :
    form cs = some (Reader.form n cs) := by
  obtain ⟨n, rfl⟩ : ∃ k, n = k + 1 := ⟨n - 1, by omega⟩
  have skipped := skip_eq n cs (by omega)
  rw [Reader.form]
  cases gap : Reader.skip n cs with
  | error trail =>
    rw [gap] at skipped
    exact form_of_error skipped
  | ok start =>
    rw [gap] at skipped
    have within := (gap_of_skip gap).length_le
    rw [form_of_skip skipped within]
    exact datum_eq _ _ (by omega)

/-- One form: the bound of each part is enough for its part of the text. -/
theorem datum_eq (n : Nat) (cs : List Char) (enough : 2 * cs.length + 1 ≤ n) :
    datum cs = some (Reader.datum n cs) := by
  obtain ⟨n, rfl⟩ : ∃ k, n = k + 1 := ⟨n - 1, by omega⟩
  -- Between brackets separators are skipped once here, and once more in front of the first form.
  have between : ∀ inner : List Char, inner.length < cs.length →
      enclosed inner = some (elements n inner) := by
    intro inner shorter
    have skipped := skip_eq n inner (by omega)
    have reads := forms_eq n inner (by omega)
    rw [← reads, enclosed, skipped]
    cases gap : Reader.skip n inner with
    | error trail =>
      rw [gap] at skipped
      exact (forms_of_failed (form_of_error skipped)).symm
    | ok start =>
      rw [gap] at skipped
      have within := (gap_of_skip gap).length_le
      have here := datum_eq n start (by omega)
      refine (if_pos within).trans (forms_of_skip skipped within here ?_)
      exact fun value rest matched => (datum_of_matched matched).length_lt
  unfold Reader.datum
  split
  · rename_i same
    cases same
  · rename_i cs same
    cases same
    rw [datum, between cs (Nat.lt_succ_self _)]
    rfl
  · rename_i cs same
    cases same
    rw [datum, between cs (Nat.lt_succ_self _)]
    rfl
  · rename_i cs same
    cases same
    rw [datum, between cs (Nat.lt_succ_self _)]
    rfl
  · rename_i cs same
    cases same
    rw [datum, between cs (by simp only [List.length_cons]; omega)]
    rfl
  · rename_i cs same
    cases same
    simp only [List.length_cons] at enough
    rw [datum, form_eq n _ (by omega)]
    cases Reader.form n cs with
    | matched quoted rest => rfl
    | mismatch => rfl
    | failed trail => rfl
  · rename_i cs same
    cases same
    rw [datum, string_eq]
  · rename_i noList noVector noMap noSet noQuote noString
    rw [datum]
    · exact noList
    · exact noVector
    · exact noMap
    · exact noSet
    · exact noQuote
    · exact noString

/-- The forms of a construct, which are read as the elements that the bounded reader takes. -/
theorem forms_eq (n : Nat) (cs : List Char) (enough : 2 * cs.length + 2 ≤ n) :
    forms cs = some (elements n cs) := by
  obtain ⟨n, rfl⟩ : ∃ k, n = k + 1 := ⟨n - 1, by omega⟩
  have skipped := skip_eq n cs (by omega)
  rw [elements]
  split
  · rename_i gap
    rw [gap] at skipped
    exact forms_of_failed (form_of_error skipped)
  · rename_i start gap
    rw [gap] at skipped
    have within := (gap_of_skip gap).length_le
    have here := (form_of_skip skipped within).trans (datum_eq n _ (by omega))
    split
    · rename_i mismatch
      rw [mismatch] at here
      rw [forms_of_mismatch here, skipped]
      rfl
    · rename_i failed
      rw [failed] at here
      exact forms_of_failed here
    · rename_i value rest matched
      rw [matched] at here
      have shorter := (datum_of_matched matched).length_lt
      rw [forms_of_matched here (by omega), forms_eq n _ (by omega), Option.map_some]
      cases elements n rest with
      | error trail => rfl
      | ok others => rfl

end

/-- The two readers of whole texts are equal, and the one without a bound never gives up. -/
theorem readChars_eq (cs : List Char) : readChars cs = some (Reader.readChars cs) := by
  rw [readChars, forms_eq (bound cs) _ (by rw [bound]; omega), Reader.readChars]
  rcases elements (bound cs) cs with trail | ⟨found, _ | ⟨c, rest⟩⟩
  · rfl
  · rfl
  · rfl

/-! ### Every separator takes a character -/

theorem blanks_remains {cs rest : List Char} (matched : blanks cs = .matched () rest) :
    Remains rest cs := by
  cases cs with
  | nil => cases matched
  | cons c cs =>
    by_cases separates : isSeparator c = true
    · rw [blanks_of_isSeparator separates] at matched
      cases matched
      exact .behind (List.dropWhile_suffix isSeparator)
    · rw [blanks_of_not_isSeparator (Bool.eq_false_iff.mpr separates)] at matched
      cases matched

theorem comment_remains {cs rest : List Char} (matched : comment cs = .matched () rest) :
    Remains rest cs := by
  rw [comment.eq_def] at matched
  split at matched
  · cases matched
    exact .behind (List.dropWhile_suffix _)
  · cases matched

theorem discard_remains {cs rest : List Char} (matched : discard cs = some (.matched () rest)) :
    Remains rest cs := by
  rw [discard.eq_def] at matched
  split at matched
  · rename_i inner
    rw [form_eq (bound inner) _ (by rw [bound]; omega)] at matched
    obtain ⟨value, read, -⟩ := Outcome.map_eq_matched (Option.some.inj matched)
    obtain ⟨start, before, datum⟩ := datum_of_form read
    exact .behind (Remains.behind (datum.remains.earlier before.suffix).1).1
  · cases matched

end Guarded

/-! ### The result -/

/-- What a computation goes on from has been computed. -/
theorem isSome_of_bind {α β : Type} {first : Option α} {next : α → Option β} {result : β}
    (gives : first >>= next = some result) : first.isSome := by
  obtain ⟨value, same, -⟩ := Option.bind_eq_some_iff.mp gives
  exact Option.isSome_of_eq_some same

/-- Reading a text goes on as long as it takes characters, and ends. -/
structure Progressing (cs : List Char) : Prop where
  /-- A form leaves a proper end of the text. -/
  form : ∀ n value rest, form n cs = .matched value rest → rest <:+ cs ∧ rest ≠ cs
  /-- Separators leave an end of the text. -/
  skip : ∀ n rest, skip n cs = .ok rest → rest <:+ cs
  /-- White space, a comment or a discarded form leaves a proper end of the text. -/
  separator : ∀ rest, Guarded.blanks cs = .matched () rest ∨ Guarded.comment cs = .matched () rest ∨
    Guarded.discard cs = some (.matched () rest) → rest <:+ cs ∧ rest ≠ cs
  /-- No repetition of separators, of forms or of pieces of a string stands still. -/
  repetitions : (Guarded.repeated cs fun place _ => Guarded.separator place).isSome ∧
    (Guarded.repeated cs fun place _ => Guarded.form place).isSome ∧ (Guarded.pieces cs).isSome
  /-- Without a bound the parts of the notation are read in the same way as with a large one. -/
  unbounded : ∀ n, bound cs ≤ n → Guarded.skip cs = some (Reader.skip n cs) ∧
    Guarded.form cs = some (Reader.form n cs) ∧ Guarded.datum cs = some (datum n cs) ∧
    Guarded.forms cs = some (elements n cs)
  /-- A whole text is read in the same way without a bound. -/
  whole : Guarded.readChars cs = some (readChars cs)

/-- Every text, whether it can be read or not, is read with progress, and reading ends. -/
theorem reading_progresses (cs : List Char) : Progressing cs where
  form := by
    intro n value rest matched
    obtain ⟨start, before, datum⟩ := datum_of_form matched
    exact datum.remains.earlier before.suffix
  skip := by
    intro n rest skipped
    exact (gap_of_skip skipped).suffix
  separator := by
    rintro rest (blank | comment | discarded)
    · exact Guarded.blanks_remains blank
    · exact Guarded.comment_remains comment
    · exact Guarded.discard_remains discarded
  repetitions := by
    have skipped := Guarded.skip_eq (bound cs) cs (by rw [bound]; omega)
    have reads := Guarded.forms_eq (bound cs) cs (by rw [bound]; omega)
    obtain ⟨found, rest, closed, -⟩ := Guarded.pieces_eq cs
    refine ⟨?_, ?_, Option.isSome_of_eq_some closed⟩
    · rw [Guarded.skip] at skipped
      exact isSome_of_bind skipped
    · rw [Guarded.forms] at reads
      exact isSome_of_bind reads
  unbounded := by
    intro n enough
    rw [bound] at enough
    exact ⟨Guarded.skip_eq _ _ (by omega), Guarded.form_eq _ _ (by omega),
      Guarded.datum_eq _ _ (by omega), Guarded.forms_eq _ _ (by omega)⟩
  whole := Guarded.readChars_eq cs

/-- The separators of a text with a stray bracket are skipped up to the bracket. -/
theorem reading_progresses_strayBracket :
    skip 20 "#_'a ) b".toList = .ok ") b".toList ∧ ") b".toList <:+ "#_'a ) b".toList ∧
      bound "#_'a ) b".toList ≤ 20 ∧ Guarded.skip "#_'a ) b".toList = some (.ok ") b".toList) := by
  have progressing := reading_progresses "#_'a ) b".toList
  have gap : Gap "#_'a ) b".toList ") b".toList :=
    .discard (.done _) (.quote (.done _) (.atom rfl)) (.blank rfl (.done _))
  have skipped := gap.skip_eq (Ended.settled (.inl rfl)) 20 (by decide)
  have enough : bound "#_'a ) b".toList ≤ 20 := by
    decide
  refine ⟨skipped, progressing.skip 20 _ skipped, enough, ?_⟩
  rw [(progressing.unbounded 20 enough).1, skipped]

end ScriptLisp.Reader
