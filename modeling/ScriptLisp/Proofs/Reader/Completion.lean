import ScriptLisp.Proofs.Reader.Composition

/-!
A text that is called incomplete can be completed. The verdict rests on a complaint at the end of
the text, and only a missing bracket or quote complains there; so everything before it was read, and
what is missing can be written on further lines, from the inside out.

* `AtEnd`: a failure for want of more text.
* `stringBody_unclosed`, `interior_of_closing`: what was read before a quote or bracket was missed.
* `gap_completable`, `datum_completable`, `forms_completable`: further lines complete separators, a
  form and a sequence of forms.
* `incomplete_completable`: every incomplete text is the start of one that can be read.
-/

namespace ScriptLisp.Reader

/-- Some complaint of a failure is about the end of the text. -/
def AtEnd (trail : Trail) : Prop :=
  ∃ complaint ∈ trail, complaint.rest = []

theorem atEnd_of_incomplete {text : List Char} {trail : Trail}
    (incomplete : Failure.ofTrail text trail = .incomplete) : AtEnd trail := by
  unfold Failure.ofTrail at incomplete
  split at incomplete
  · rename_i some
    obtain ⟨complaint, member, empty⟩ := List.any_eq_true.mp some
    exact ⟨complaint, member, List.isEmpty_iff.mp empty⟩
  · cases incomplete

/-- A construct complains about its own start, which is not the end. -/
theorem AtEnd.of_compound {trail : Trail} {construct : Construct} {c : Char} {cs : List Char}
    (atEnd : AtEnd (trail ++ compoundTrail construct (c :: cs))) : AtEnd trail := by
  obtain ⟨complaint, member, empty⟩ := atEnd
  rcases List.mem_append.mp member with inside | own
  · exact ⟨complaint, inside, empty⟩
  · simp only [compoundTrail, List.mem_cons, List.not_mem_nil, or_false] at own
    rcases own with rfl | rfl | rfl <;> cases empty

/-! ### What was missed -/

/-- A string that misses only its closing quote goes on with whatever follows. -/
theorem stringBody_unclosed {cs more others rest : List Char}
    (unclosed : stringBody cs = .error []) (closed : stringBody more = .ok (others, rest)) :
    ∃ text, stringBody (cs ++ more) = .ok (text, rest) := by
  fun_induction stringBody cs with
  | case1 => exact ⟨others, closed⟩
  | case2 | case3 | case5 => cases unclosed
  | case4 c cs d unescaped ih =>
    cases inner : stringBody cs with
    | ok reading => rw [inner] at unclosed; cases unclosed
    | error place =>
      rw [inner] at unclosed
      cases unclosed
      obtain ⟨text, goesOn⟩ := ih inner
      refine ⟨d :: text, ?_⟩
      rw [List.cons_append, List.cons_append, stringBody, unescaped, goesOn]
      rfl
  | case6 c cs noQuote notLast noEscape ih =>
    have noBackslash : c ≠ '\\' := by
      rintro rfl
      cases cs with
      | nil => exact notLast rfl rfl
      | cons d cs => exact noEscape d cs rfl rfl
    cases inner : stringBody cs with
    | ok reading => rw [inner] at unclosed; cases unclosed
    | error place =>
      rw [inner] at unclosed
      cases unclosed
      obtain ⟨text, goesOn⟩ := ih inner
      refine ⟨c :: text, ?_⟩
      rw [List.cons_append, stringBody_cons_of_ne noQuote noBackslash, goesOn]
      rfl

/-- A string that fails at the end of the text is completed by a quote on the next line. -/
theorem string_completable {body start : List Char} {trail : Trail} {c : Char}
    (failed : stringOutcome (c :: start) body = .failed trail) (atEnd : AtEnd trail) :
    ∃ text, stringBody (body ++ ['\n', '"']) = .ok (text, []) := by
  unfold stringOutcome at failed
  split at failed
  · cases failed
  · rename_i place unclosed
    cases failed
    have missed : place = [] := by
      obtain ⟨complaint, member, empty⟩ := atEnd
      simp only [stringTrail, List.mem_cons, List.not_mem_nil, or_false] at member
      rcases member with rfl | rfl | rfl | rfl
      · exact empty
      all_goals cases empty
    subst missed
    exact stringBody_unclosed unclosed rfl

/-- A bracket that is missed at the end follows elements that were all read, or elements that fail
at the end themselves. -/
theorem interior_of_closing {construct : Construct} {close c : Char} {start : List Char}
    {reading : Except Trail (List Form × List Char)} {trail : Trail}
    (failed : closing construct close (c :: start) reading = .failed trail)
    (atEnd : AtEnd trail) :
    (∃ forms, reading = .ok (forms, [])) ∨ ∃ inner, reading = .error inner ∧ AtEnd inner := by
  unfold closing at failed
  split at failed
  · rename_i inner
    cases failed
    exact .inr ⟨inner, rfl, atEnd.of_compound⟩
  · rename_i elements rest
    cases rest with
    | nil => exact .inl ⟨elements, rfl⟩
    | cons d after =>
      simp only at failed
      split at failed
      · cases failed
      · cases failed
        have inside : AtEnd [⟨d :: after, .character close⟩] :=
          @AtEnd.of_compound [_] construct c start atEnd
        obtain ⟨complaint, member, empty⟩ := inside
        cases List.mem_singleton.mp member
        cases empty

/-! ### Further lines -/

theorem Outcome.map_eq_failed {α β : Type} {f : α → β} {outcome : Outcome α} {trail : Trail}
    (failed : outcome.map f = .failed trail) : outcome = .failed trail := by
  cases outcome with
  | matched => cases failed
  | mismatch => cases failed
  | failed => cases failed; rfl

theorem mapOutcome_eq_failed {outcome : Outcome (List Form)} {trail : Trail}
    (failed : mapOutcome outcome = .failed trail) : outcome = .failed trail := by
  cases outcome with
  | matched forms rest =>
    rw [mapOutcome] at failed
    split at failed <;> cases failed
  | mismatch => cases failed
  | failed => cases failed; rfl

/-- The plainest form, which fills a place that has to be filled. -/
theorem datum_nil : Datum ['n', 'i', 'l'] .nil [] :=
  .atom rfl

/-- A bracket on a line of its own closes elements that were completed. -/
theorem Forms.closed {cs line : List Char} {forms : List Form}
    (derived : Forms (cs ++ '\n' :: line) forms []) (close : Char) :
    Forms (cs ++ '\n' :: (line ++ ['\n', close])) forms [close] := by
  have upTo := derived.upTo [close]
  rwa [List.append_assoc, List.cons_append] at upTo

/-- Completed elements can be made even in number, by one more where a value is missing. -/
theorem Forms.even {cs line : List Char} {forms : List Form}
    (derived : Forms (cs ++ '\n' :: line) forms []) :
    ∃ line' forms', Forms (cs ++ '\n' :: line') forms' [] ∧ forms'.length % 2 = 0 := by
  by_cases even : forms.length % 2 = 0
  · exact ⟨line, forms, derived, even⟩
  · have filled := derived.lines (.cons (.done _) datum_nil (.nil (.done _)))
    rw [List.append_assoc, List.cons_append] at filled
    refine ⟨_, _, filled, ?_⟩
    rw [List.length_append, List.length_singleton]
    omega

/-- What stands in an open bracket up to the end is completed by further lines, if it is whenever it
fails itself. -/
theorem interior_completable {bound : Nat} {construct : Construct} {close c : Char}
    {cs start : List Char} {trail : Trail}
    (completable : ∀ {trail}, elements bound cs = .error trail → AtEnd trail →
      ∃ line forms, Forms (cs ++ '\n' :: line) forms [])
    (failed : closing construct close (c :: start) (elements bound cs) = .failed trail)
    (atEnd : AtEnd trail) : ∃ line forms, Forms (cs ++ '\n' :: line) forms [] := by
  rcases interior_of_closing failed atEnd with ⟨forms, read⟩ | ⟨inner, unread, innerAtEnd⟩
  · exact ⟨[], forms, (forms_of_elements read).upTo []⟩
  · exact completable unread innerAtEnd

mutual

/-- Separators that fail at the end, inside a discarded form, are completed by further lines. -/
theorem gap_completable {bound : Nat} {cs : List Char} {trail : Trail}
    (failed : skip bound cs = .error trail) (atEnd : AtEnd trail) :
    ∃ line, Gap (cs ++ '\n' :: line) [] := by
  match bound with
  | 0 => cases failed
  | bound + 1 =>
    unfold skip at failed
    split at failed
    · cases failed
    · cases failed
    · rename_i same
      cases same
      obtain ⟨line, gap⟩ := gap_completable failed atEnd
      have stops : StopsAt (· != '\n') ('\n' :: line) := .cons (by decide)
      rw [← stops.dropWhile_append] at gap
      exact ⟨line, .comment gap⟩
    · rename_i same
      cases same
      split at failed
      · rename_i matched
        obtain ⟨start, before, datum⟩ := datum_of_form matched
        obtain ⟨line, gap⟩ := gap_completable failed atEnd
        exact ⟨line, .discard (before.beforeLine line) (datum.beforeLine line) gap⟩
      · cases failed
      · rename_i inner
        cases failed
        obtain ⟨line, start, form, before, datum⟩ := form_completable inner atEnd
        exact ⟨line, .discard before datum (.done [])⟩
    · rename_i same
      cases same
      split at failed
      · rename_i separator
        obtain ⟨line, gap⟩ := gap_completable failed atEnd
        exact ⟨line, .blank separator gap⟩
      · cases failed

/-- A form after separators that fails at the end is completed by further lines. -/
theorem form_completable {bound : Nat} {cs : List Char} {trail : Trail}
    (failed : form bound cs = .failed trail) (atEnd : AtEnd trail) :
    ∃ line start value, Gap (cs ++ '\n' :: line) start ∧ Datum start value [] := by
  match bound with
  | 0 => cases failed
  | bound + 1 =>
    rw [form] at failed
    split at failed
    · rename_i skipped
      obtain ⟨line, value, datum⟩ := datum_completable failed atEnd
      exact ⟨line, _, value, (gap_of_skip skipped).beforeLine line, datum⟩
    · -- only separators were completed, so that the form itself is still to be written
      rename_i unskipped
      cases failed
      obtain ⟨line, gap⟩ := gap_completable unskipped atEnd
      have filled := (gap.beforeLine ['n', 'i', 'l']).trans (gap_line _)
      rw [List.append_assoc, List.cons_append] at filled
      exact ⟨_, _, _, filled, datum_nil⟩

/-- A form that starts right here and fails at the end is completed by further lines. -/
theorem datum_completable {bound : Nat} {cs : List Char} {trail : Trail}
    (failed : datum bound cs = .failed trail) (atEnd : AtEnd trail) :
    ∃ line value, Datum (cs ++ '\n' :: line) value [] := by
  match bound with
  | 0 => cases failed
  | bound + 1 =>
    unfold datum at failed
    split at failed
    · cases failed
    · rename_i same
      cases same
      obtain ⟨line, forms, inner⟩ :=
        interior_completable forms_completable (Outcome.map_eq_failed failed) atEnd
      exact ⟨_, _, .list (inner.closed ')')⟩
    · rename_i same
      cases same
      obtain ⟨line, forms, inner⟩ :=
        interior_completable forms_completable (Outcome.map_eq_failed failed) atEnd
      exact ⟨_, _, .vector (inner.closed ']')⟩
    · rename_i same
      cases same
      obtain ⟨line, forms, inner⟩ :=
        interior_completable forms_completable (mapOutcome_eq_failed failed) atEnd
      -- One more form is added where the elements would not make pairs.
      obtain ⟨line, forms, inner, even⟩ := inner.even
      exact ⟨_, _, .map (inner.closed '\x7d') even⟩
    · rename_i same
      cases same
      obtain ⟨line, forms, inner⟩ :=
        interior_completable forms_completable (Outcome.map_eq_failed failed) atEnd
      exact ⟨_, _, .set (inner.closed '\x7d')⟩
    · rename_i same
      cases same
      split at failed
      · cases failed
      · cases failed
      · rename_i inner
        cases failed
        obtain ⟨line, start, value, before, datum⟩ := form_completable inner atEnd.of_compound
        exact ⟨line, _, .quote before datum⟩
    · rename_i same
      cases same
      obtain ⟨text, closed⟩ := string_completable failed atEnd
      exact ⟨['"'], _, .string closed⟩
    · unfold atomOutcome at failed
      split at failed <;> cases failed

/-- Forms that fail at the end are completed by further lines. -/
theorem forms_completable {bound : Nat} {cs : List Char} {trail : Trail}
    (failed : elements bound cs = .error trail) (atEnd : AtEnd trail) :
    ∃ line forms, Forms (cs ++ '\n' :: line) forms [] := by
  match bound with
  | 0 => cases failed
  | bound + 1 =>
    rw [elements] at failed
    split at failed
    · rename_i unskipped
      cases failed
      obtain ⟨line, gap⟩ := gap_completable unskipped atEnd
      exact ⟨line, [], .nil gap⟩
    · rename_i skipped
      have gap := gap_of_skip skipped
      split at failed
      · cases failed
      · rename_i unread
        cases failed
        obtain ⟨line, value, datum⟩ := datum_completable unread atEnd
        exact ⟨line, [value], .cons (gap.beforeLine line) datum (.nil (.done []))⟩
      · rename_i matched
        split at failed
        · rename_i unread
          cases failed
          obtain ⟨line, forms, others⟩ := forms_completable unread atEnd
          exact ⟨line, _, .cons (gap.beforeLine line)
            ((datum_of_matched matched).beforeLine line) others⟩
        · cases failed

end

end ScriptLisp.Reader

namespace ScriptLisp

/-- A text is called incomplete only if it can be completed: some text after it makes it
readable. -/
theorem incomplete_completable {text : String} (incomplete : read text = .error .incomplete) :
    ∃ more forms, read (text ++ more) = .ok forms := by
  unfold read Reader.readChars at incomplete
  split at incomplete
  · cases incomplete
  · -- text that is left over is no end of the text
    rename_i notEmpty _
    obtain ⟨complaint, member, empty⟩ :=
      Reader.atEnd_of_incomplete (Except.error.inj incomplete)
    cases List.mem_singleton.mp member
    exact absurd empty notEmpty
  · rename_i trail unread
    have atEnd := Reader.atEnd_of_incomplete (Except.error.inj incomplete)
    obtain ⟨line, forms, derived⟩ := Reader.forms_completable unread atEnd
    refine ⟨String.ofList ('\n' :: line), forms, ?_⟩
    rw [read, String.toList_append, String.toList_ofList]
    exact Reader.readChars_eq_ok_iff.mpr derived

/-- A map with a key too many, inside a quoted list, breaks off in a comment after a discarded
vector that is still open. -/
theorem incomplete_completable_nested :
    read "'(a \x7b:k #_[\"s\" ; note" = .error .incomplete ∧
    ∃ more forms, read ("'(a \x7b:k #_[\"s\" ; note" ++ more) = .ok forms := by
  have verdict : (match read "'(a \x7b:k #_[\"s\" ; note" with
      | .error failure => some failure
      | .ok _ => none) = some .incomplete := by
    decide +kernel
  have incomplete : read "'(a \x7b:k #_[\"s\" ; note" = .error .incomplete := by
    cases outcome : read "'(a \x7b:k #_[\"s\" ; note" with
    | error failure => rw [outcome] at verdict; cases verdict; rfl
    | ok forms => rw [outcome] at verdict; cases verdict
  exact ⟨incomplete, incomplete_completable incomplete⟩

end ScriptLisp
