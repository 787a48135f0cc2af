import ScriptLisp.Proofs.Reader.Grammar

/-!
Reading goes piece by piece. A line break ends every token, comment and discarded form before it, so
a text that reads on its own keeps its forms when a line break and more text follow, at the top or
between brackets.

* `Gap.beforeLine`, `Datum.beforeLine`, `Forms.beforeLine`: a derivation goes through unchanged when
  a further line follows the text.
* `readChars_lines`: texts on lines of their own read as their forms together.
* `read_compositional`: the laws of sequences, brackets, quotation and discard.
-/

namespace ScriptLisp.Reader

/-! ### A further line -/

section Line

variable (line : List Char)

theorem apart_line : Apart ('\n' :: line) :=
  StopsAt.cons (by decide)

mutual

theorem Gap.beforeLine {cs rest : List Char} (derived : Gap cs rest) :
    Gap (cs ++ '\n' :: line) (rest ++ '\n' :: line) := by
  match derived with
  | .done _ => exact .done _
  | .blank separator gap => exact .blank separator gap.beforeLine
  | .comment gap =>
    -- the comment may be the last line of its text: then it ends at the new line break
    have stops : StopsAt (· != '\n') ('\n' :: line) := .cons (by decide)
    rw [List.cons_append]
    refine .comment ?_
    rw [stops.dropWhile_append]
    exact gap.beforeLine
  | .discard before datum gap => exact .discard before.beforeLine datum.beforeLine gap.beforeLine

theorem Datum.beforeLine {cs rest : List Char} {form : Form} (derived : Datum cs form rest) :
    Datum (cs ++ '\n' :: line) form (rest ++ '\n' :: line) := by
  match derived with
  | .list inner => exact .list inner.beforeLine
  | .vector inner => exact .vector inner.beforeLine
  | .map inner even => exact .map inner.beforeLine even
  | .set inner => exact .set inner.beforeLine
  | .quote before datum => exact .quote before.beforeLine datum.beforeLine
  | .string closed => exact .string (stringBody_append _ closed)
  | .atom taken =>
    refine .atom ?_
    rw [atom?_append (apart_line line), taken]
    rfl

theorem Forms.beforeLine {cs rest : List Char} {forms : List Form}
    (derived : Forms cs forms rest) : Forms (cs ++ '\n' :: line) forms (rest ++ '\n' :: line) := by
  match derived with
  | .nil gap => exact .nil gap.beforeLine
  | .cons before datum others => exact .cons before.beforeLine datum.beforeLine others.beforeLine

end

end Line

/-! ### Sequences -/

theorem Gap.trans {cs middle rest : List Char} (first : Gap cs middle) (second : Gap middle rest) :
    Gap cs rest := by
  match first with
  | .done _ => exact second
  | .blank separator gap => exact .blank separator (gap.trans second)
  | .comment gap => exact .comment (gap.trans second)
  | .discard before datum gap => exact .discard before datum (gap.trans second)

theorem Forms.afterGap {cs start rest : List Char} {forms : List Form} (gap : Gap cs start)
    (derived : Forms start forms rest) : Forms cs forms rest := by
  cases derived with
  | nil more => exact .nil (gap.trans more)
  | cons before datum others => exact .cons (gap.trans before) datum others

theorem Forms.append {cs middle rest : List Char} {forms others : List Form}
    (first : Forms cs forms middle) (second : Forms middle others rest) :
    Forms cs (forms ++ others) rest := by
  match first with
  | .nil gap => exact .afterGap gap second
  | .cons before datum tail => exact .cons before datum (tail.append second)

/-- A line break is a separator. -/
theorem gap_line (cs : List Char) : Gap ('\n' :: cs) cs :=
  .blank (by decide) (.done cs)

/-- Forms up to the end of a text, then those of the lines after it. -/
theorem Forms.lines {cs line rest : List Char} {forms others : List Form}
    (first : Forms cs forms []) (second : Forms line others rest) :
    Forms (cs ++ '\n' :: line) (forms ++ others) rest :=
  (first.beforeLine line).append (.afterGap (gap_line line) second)

/-- Forms up to the end of a text, then a bracket on a line of its own. -/
theorem Forms.upTo {cs : List Char} {forms : List Form} (derived : Forms cs forms [])
    (after : List Char) : Forms (cs ++ '\n' :: after) forms after := by
  have whole := derived.lines (.nil (.done after))
  rwa [List.append_nil] at whole

theorem readChars_lines {cs line : List Char} {forms others : List Form}
    (first : readChars cs = .ok forms) (second : readChars line = .ok others) :
    readChars (cs ++ '\n' :: line) = .ok (forms ++ others) :=
  readChars_eq_ok_iff.mpr
    ((readChars_eq_ok_iff.mp first).lines (readChars_eq_ok_iff.mp second))

/-! ### Brackets and marks -/

theorem readChars_of_datum {cs : List Char} {form : Form} (derived : Datum cs form []) :
    readChars cs = .ok [form] :=
  readChars_eq_ok_iff.mpr (.cons (.done cs) derived (.nil (.done [])))

/-- An odd number of forms between braces is no map, and nothing else starts with a brace. -/
theorem readChars_oddMap {cs : List Char} {forms : List Form} (derived : Forms cs forms [])
    (odd : forms.length % 2 = 1) :
    ∃ failure, readChars ('\x7b' :: cs ++ ['\n', '\x7d']) = .error failure := by
  obtain ⟨steps, enough⟩ : ∃ steps, bound ('\x7b' :: cs ++ ['\n', '\x7d']) = steps + 2 :=
    ⟨2 * (cs.length + 3) + 2, by simp [bound]⟩
  have settled : Settled ('\x7b' :: cs ++ ['\n', '\x7d']) :=
    settled_of_reserved (by decide) (by decide) (by simp)
  have inner : elements steps (cs ++ ['\n', '\x7d']) = .ok (forms, ['\x7d']) := by
    refine (derived.upTo ['\x7d']).elements_eq (.inr (.inr rfl)) steps ?_
    simp only [bound, List.length_append, List.length_cons, List.length_nil] at enough ⊢
    omega
  have noMap : datum (steps + 1) ('\x7b' :: cs ++ ['\n', '\x7d']) = .mismatch := by
    rw [List.cons_append, datum, inner, closing_eq, mapOutcome, if_neg (by omega)]
  rw [readChars, enough, elements, settled.skip_eq]
  simp only [noMap]
  exact ⟨_, rfl⟩

/-- The entries of a map are its elements in order. -/
theorem flatMap_pairs {forms : List Form} (even : forms.length % 2 = 0) :
    (Form.pairs forms).flatMap (fun entry => [entry.1, entry.2]) = forms := by
  match forms with
  | [] => rfl
  | [_] => exact absurd even (by simp)
  | key :: value :: rest =>
    rw [List.length_cons, List.length_cons] at even
    rw [Form.pairs, List.flatMap_cons, flatMap_pairs (by omega)]
    rfl

/-- Of equal elements a set keeps the first. -/
theorem setOf_eq (forms : List Form) :
    Form.setOf forms = .set (forms.eraseDupsBy fun later earlier => earlier.same later) := by
  have loop : ∀ rest kept : List Form,
      rest.foldl (fun kept e => if kept.any (Form.same · e) then kept else kept ++ [e]) kept =
        List.eraseDupsBy.loop (fun later earlier => earlier.same later) rest kept.reverse := by
    intro rest
    induction rest with
    | nil => intro kept; rw [List.eraseDupsBy.loop, List.reverse_reverse]; rfl
    | cons form rest ih =>
      intro kept
      rw [List.foldl_cons, ih, List.eraseDupsBy.loop, List.any_reverse]
      cases kept.any (Form.same · form) with
      | true => rfl
      | false => simp
  rw [Form.setOf, loop]
  rfl

/-! ### Texts -/

theorem toList_after (marks : List Char) (text : String) :
    (String.ofList marks ++ text).toList = marks ++ text.toList := by
  rw [String.toList_append, String.toList_ofList]

theorem toList_lines (text line : String) :
    (text ++ "\n" ++ line).toList = text.toList ++ '\n' :: line.toList := by
  rw [String.toList_append, String.toList_append, List.append_assoc]
  rfl

theorem read_ofList (cs : List Char) : read (String.ofList cs) = readChars cs := by
  rw [read, String.toList_ofList]

theorem read_between (marks after : List Char) (text : String) :
    read (String.ofList marks ++ text ++ String.ofList after) =
      readChars (marks ++ text.toList ++ after) := by
  rw [read, String.toList_append, toList_after, String.toList_ofList]

/-- Texts on lines of their own read as their forms together. -/
theorem read_lines {text line : String} {forms others : List Form}
    (first : read text = .ok forms) (second : read line = .ok others) :
    read (text ++ "\n" ++ line) = .ok (forms ++ others) := by
  rw [read, toList_lines]
  exact readChars_lines first second

end ScriptLisp.Reader

namespace ScriptLisp

open Reader

/-- Reading is compositional: whatever two texts read as on their own, sequence, brackets,
quotation and discard make of the texts what they make of the forms. -/
theorem read_compositional {a b : String} {first second : List Form}
    (readFirst : read a = .ok first) (readSecond : read b = .ok second) :
    read (a ++ "\n" ++ b) = .ok (first ++ second) ∧
    read ("(" ++ a ++ "\n)") = .ok [.list first] ∧
    read ("[" ++ a ++ "\n]") = .ok [.vector first] ∧
    read ("#\x7b" ++ a ++ "\n\x7d") =
      .ok [.set (first.eraseDupsBy fun later earlier => earlier.same later)] ∧
    (first.length % 2 = 0 →
      ∃ entries : List (Form × Form),
        entries.flatMap (fun entry => [entry.1, entry.2]) = first ∧
        read ("\x7b" ++ a ++ "\n\x7d") = .ok [.map entries]) ∧
    (first.length % 2 = 1 → ∃ failure, read ("\x7b" ++ a ++ "\n\x7d") = .error failure) ∧
    ∀ form, first = [form] →
      read ("'" ++ a) = .ok [.list [.symbol "quote", form]] ∧
      read ("#_" ++ a ++ "\n" ++ b) = .ok second := by
  have derived : Forms a.toList first [] := readChars_eq_ok_iff.mp readFirst
  have derivedSecond : Forms b.toList second [] := readChars_eq_ok_iff.mp readSecond
  refine ⟨read_lines readFirst readSecond, ?_, ?_, ?_, ?_, ?_, ?_⟩
  · rw [← readChars_of_datum (.list (derived.upTo [')']))]
    exact read_between ['('] ['\n', ')'] a
  · rw [← readChars_of_datum (.vector (derived.upTo [']']))]
    exact read_between ['['] ['\n', ']'] a
  · rw [← setOf_eq, ← readChars_of_datum (.set (derived.upTo ['\x7d']))]
    exact read_between ['#', '\x7b'] ['\n', '\x7d'] a
  · intro even
    refine ⟨Form.pairs first, flatMap_pairs even, ?_⟩
    rw [← readChars_of_datum (.map (derived.upTo ['\x7d']) even)]
    exact read_between ['\x7b'] ['\n', '\x7d'] a
  · intro odd
    obtain ⟨failure, failed⟩ := readChars_oddMap derived odd
    refine ⟨failure, ?_⟩
    rw [← failed]
    exact read_between ['\x7b'] ['\n', '\x7d'] a
  · rintro form rfl
    obtain - | ⟨before, datum, others⟩ := derived
    obtain ⟨after⟩ := others
    constructor
    · have whole : Forms ('\'' :: a.toList) [Form.quote form] [] :=
        .cons (.done _) (.quote before datum) (.nil after)
      rw [read, toList_after ['\''] a]
      exact readChars_eq_ok_iff.mpr whole
    · have gap : Gap ('#' :: '_' :: a.toList) [] := .discard before datum after
      have whole := (Forms.nil gap).lines derivedSecond
      rw [read, toList_lines, toList_after ['#', '_'] a]
      exact readChars_eq_ok_iff.mpr whole

/-- The first text ends in a comment, and the second starts with a discarded form. -/
theorem read_compositional_comment :
    read "k k ; twice" = .ok [.symbol "k", .symbol "k"] ∧
    read "#_x y" = .ok [.symbol "y"] ∧
    read ("k k ; twice" ++ "\n" ++ "#_x y") = .ok [.symbol "k", .symbol "k", .symbol "y"] ∧
    read ("#\x7b" ++ "k k ; twice" ++ "\n\x7d") = .ok [.set [.symbol "k"]] ∧
    read ("'" ++ "#_x y") = .ok [.list [.symbol "quote", .symbol "y"]] ∧
    ∃ failure, read ("\x7b" ++ "#_x y" ++ "\n\x7d") = .error failure := by
  have derivedTwice : Forms ['k', ' ', 'k', ' ', ';', ' ', 't', 'w', 'i', 'c', 'e']
      [.symbol "k", .symbol "k"] [] :=
    .cons (.done _) (.atom rfl) (.cons (.blank rfl (.done _)) (.atom rfl)
      (.nil (.blank rfl (.comment (.done _)))))
  have derivedOnce : Forms ['#', '_', 'x', ' ', 'y'] [.symbol "y"] [] :=
    .cons (.discard (.done _) (.atom rfl) (.blank rfl (.done _))) (.atom rfl) (.nil (.done _))
  have twice : read "k k ; twice" = .ok [.symbol "k", .symbol "k"] :=
    (read_ofList _).trans (readChars_eq_ok_iff.mpr derivedTwice)
  have discarded : read "#_x y" = .ok [.symbol "y"] :=
    (read_ofList _).trans (readChars_eq_ok_iff.mpr derivedOnce)
  obtain ⟨sequence, -, -, set, -⟩ := read_compositional twice discarded
  obtain ⟨-, -, -, -, -, odd, marks⟩ := read_compositional discarded twice
  exact ⟨twice, discarded, sequence, set, (marks _ rfl).1, odd rfl⟩

end ScriptLisp
