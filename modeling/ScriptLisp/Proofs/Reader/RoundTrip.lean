import ScriptLisp.Form.Display
import ScriptLisp.Proofs.Form.Within
import ScriptLisp.Proofs.Integer
import ScriptLisp.Proofs.Reader.Composition

/-!
Displaying and reading are inverse. What the reader makes of a text is displayed as a text that
reads as the same form again, whatever brackets or separators stand around it. Two things are
left out: decimals, and strings with a character whose displayed escape cannot be read.

* `Legible`: a form without such decimals and strings.
* `Rereads`: the displayed form, followed by anything but the rest of a symbol, starts with the
  form again.
* `atom?_chars`, `stringBody_quoted`: atoms and strings read back.
* `Datum.rereads`, `Forms.rereads`: so does every form that the grammar derives.
* `read_display`: displayed text reads as the one form it displays.
-/

namespace ScriptLisp

/-! ### What is displayed legibly -/

/-- The displayed escapes that can be read. -/
def readableEscapes : List (List Char) :=
  [['\\', '"'], ['\\', '\\'], ['\\', 'n'], ['\\', 't'], ['\\', 'r']]

/-- A character is displayed as it is or by an escape that can be read. -/
def LegibleChar (c : Char) : Prop :=
  Text.quotedChar c = [c] ∨ Text.quotedChar c ∈ readableEscapes

instance (c : Char) : Decidable (LegibleChar c) :=
  inferInstanceAs (Decidable (_ ∨ _))

namespace Form

/-- A form holds no decimal, and all characters of all strings in it are displayed legibly. -/
structure Legible (form : Form) : Prop where
  noDecimal : ∀ d, ¬ Within parts (.decimal d) form
  strings : ∀ s, Within parts (.string s) form → ∀ c ∈ s.toList, LegibleChar c

theorem Legible.part {form part : Form} (legible : Legible form) (member : part ∈ form.parts) :
    Legible part where
  noDecimal d inside := legible.noDecimal d (.part member inside)
  strings s inside := legible.strings s (.part member inside)

theorem Legible.of_parts {form : Form} (noDecimal : ∀ d, form ≠ .decimal d)
    (shown : ∀ s, form = .string s → ∀ c ∈ s.toList, LegibleChar c)
    (below : ∀ part ∈ form.parts, Legible part) : Legible form where
  noDecimal d inside := by
    cases inside with
    | self => exact noDecimal d rfl
    | part member deeper => exact (below _ member).noDecimal d deeper
  strings s inside := by
    cases inside with
    | self => exact shown s rfl
    | part member deeper => exact (below _ member).strings s deeper

/-- A set keeps some of the given elements, and making a set of these again keeps them all. -/
theorem exists_setOf (forms : List Form) :
    ∃ kept, (∀ f ∈ kept, f ∈ forms) ∧ setOf forms = .set kept ∧ setOf kept = .set kept := by
  -- started from any elements, the fold appends what it appends to them when it meets only that
  have loop : ∀ rest kept : List Form, ∃ new, (∀ f ∈ new, f ∈ rest) ∧
      rest.foldl (fun kept e => if kept.any (same · e) then kept else kept ++ [e]) kept =
        kept ++ new ∧
      new.foldl (fun kept e => if kept.any (same · e) then kept else kept ++ [e]) kept =
        kept ++ new := by
    intro rest
    induction rest with
    | nil => exact fun kept => ⟨[], by simp, by simp, by simp⟩
    | cons form rest ih =>
      intro kept
      by_cases known : kept.any (same · form) = true
      · obtain ⟨new, among, whole, again⟩ := ih kept
        refine ⟨new, fun f member => List.mem_cons_of_mem form (among f member), ?_, again⟩
        rw [List.foldl_cons, if_pos known, whole]
      · obtain ⟨new, among, whole, again⟩ := ih (kept ++ [form])
        refine ⟨form :: new, ?_, ?_, ?_⟩
        · intro f member
          rcases List.mem_cons.mp member with rfl | member
          · exact List.mem_cons_self
          · exact List.mem_cons_of_mem form (among f member)
        · rw [List.foldl_cons, if_neg known, whole, List.append_assoc]
          rfl
        · rw [List.foldl_cons, if_neg known, again, List.append_assoc]
          rfl
  obtain ⟨new, among, whole, again⟩ := loop forms []
  exact ⟨new, among, congrArg Form.set whole, congrArg Form.set again⟩

end Form

/-! ### Whole numbers -/

namespace Integer

theorem wholeNumber_toDigits (n : Int) :
    wholeNumber (decide (n < 0)) (Nat.toDigits 10 n.natAbs) = n := by
  rw [wholeNumber, Nat.ofDigitChars_toDigits (by decide) (by decide)]
  by_cases negative : n < 0
  · simp only [negative, decide_true, if_true]
    omega
  · simp only [negative, decide_false, Bool.false_eq_true, if_false]
    omega

end Integer

namespace Reader

theorem isDigit_toDigits (n : Nat) : ∀ c ∈ Nat.toDigits 10 n, c.isDigit = true :=
  fun _ => Nat.isDigit_of_mem_toDigits (by decide) (by decide)

theorem digits?_toDigits (n : Nat) (rest : List Char) (stops : StopsAt Char.isDigit rest) :
    digits? (Nat.toDigits 10 n ++ rest) = some (Nat.toDigits 10 n, rest) :=
  digits?_of_isDigits ⟨Nat.toDigits_ne_nil, isDigit_toDigits n⟩ stops

/-- The sign of a displayed number is cut off before its digits. -/
theorem sign_chars (n : Int) (rest : List Char) :
    Integer.sign (Integer.chars n ++ rest) =
      (decide (n < 0), Nat.toDigits 10 n.natAbs ++ rest) := by
  by_cases negative : n < 0
  · rw [Integer.chars, if_pos negative, decide_eq_true negative]
    rfl
  · rw [Integer.chars, if_neg negative, decide_eq_false negative]
    cases written : Nat.toDigits 10 n.natAbs with
    | nil => exact absurd written Nat.toDigits_ne_nil
    | cons d ds =>
      have digit : d.isDigit = true := isDigit_toDigits n.natAbs d (by simp [written])
      refine sign_cons_of_ne ?_ ?_ (ds ++ rest)
      · rintro rfl; cases digit
      · rintro rfl; cases digit

theorem atom?_of_integer (w : Int64) :
    atom? (Form.integer w).chars = some (.integer w, []) := by
  have sign := sign_chars w.toInt []
  have digits := digits?_toDigits w.toInt.natAbs [] .nil
  rw [List.append_nil] at sign digits
  have noDecimal : decimal? (Integer.chars w.toInt) = none := by
    simp [decimal?, sign, digits]
  have noRational : rational? (Integer.chars w.toInt) = none := by
    simp [rational?, sign, digits]
  have integer : integer? (Integer.chars w.toInt) = some (.integer w, []) := by
    simp [integer?, sign, digits, Integer.wholeNumber_toDigits, Integer.ofInt?_toInt]
  rw [Form.chars, atom?, number?, noDecimal, noRational, integer]
  rfl

/-- A ratio reads back if no sign stands between its parts. -/
theorem atom?_of_rational (n : Int64) {d : Int64} (unsigned : 0 ≤ d.toInt) :
    atom? (Form.rational n d).chars = some (.rational n d, []) := by
  have below : Integer.chars d.toInt = Nat.toDigits 10 d.toInt.natAbs := by
    rw [Integer.chars, if_neg (by omega)]
  have belowNumber : Integer.wholeNumber false (Nat.toDigits 10 d.toInt.natAbs) = d.toInt := by
    have whole := Integer.wholeNumber_toDigits d.toInt
    rwa [decide_eq_false (by omega)] at whole
  have sign := sign_chars n.toInt ('/' :: Integer.chars d.toInt)
  have above := digits?_toDigits n.toInt.natAbs ('/' :: Integer.chars d.toInt)
    (.cons (by decide))
  have digits := digits?_toDigits d.toInt.natAbs [] .nil
  rw [List.append_nil, ← below] at digits
  have noDecimal : decimal? (Form.rational n d).chars = none := by
    simp [Form.chars, decimal?, sign, above]
  have rational : rational? (Form.rational n d).chars = some (.rational n d, []) := by
    rw [← below] at belowNumber
    simp [Form.chars, rational?, sign, above, digits, belowNumber,
      Integer.wholeNumber_toDigits, Integer.ofInt?_toInt]
  rw [atom?, number?, noDecimal, rational]
  rfl

/-! ### Symbols and keywords -/

theorem parts_of_identifier? {cs rest : List Char} {text : String}
    (taken : identifier? cs = some (text, rest)) : cs = text.toList ++ rest ∧ Apart rest := by
  cases cs with
  | nil => cases taken
  | cons c cs =>
    rw [identifier?] at taken
    split at taken
    · cases taken
      refine ⟨?_, ?_⟩
      · rw [String.toList_ofList, List.cons_append, List.takeWhile_append_dropWhile]
      · intro d head
        have outside := List.head?_dropWhile_not isSymbolPart cs
        rw [head] at outside
        simpa using outside
    · cases taken

theorem chars_symbolForm (text : String) : (symbolForm text).chars = text.toList := by
  unfold symbolForm
  split
  · rename_i same; subst same; rfl
  · split
    · rename_i same; subst same; rfl
    · split
      · rename_i same; subst same; rfl
      · rfl

/-- An atom that was read up to the end of a symbol is read from its own characters alone. -/
theorem atom?_alone {token rest : List Char} {form : Form} (apart : Apart rest)
    (taken : atom? (token ++ rest) = some (form, rest)) : atom? token = some (form, []) := by
  rw [atom?_append apart] at taken
  obtain ⟨⟨read, left⟩, alone, same⟩ := Option.map_eq_some_iff.mp taken
  simp only [followedBy, Prod.mk.injEq, List.append_left_eq_self] at same
  rw [alone, same.1, same.2]

/-! ### Atoms -/

theorem integer_of_integer? {cs rest : List Char} {form : Form}
    (taken : integer? cs = some (form, rest)) : ∃ w, form = .integer w := by
  simp only [integer?, Option.bind_eq_bind, Option.bind_eq_some_iff, Option.pure_def,
    Option.some.injEq, Prod.mk.injEq] at taken
  obtain ⟨_, _, w, _, same, _⟩ := taken
  exact ⟨w, same.symm⟩

/-- No sign is read below the slash. -/
theorem rational_of_rational? {cs rest : List Char} {form : Form}
    (taken : rational? cs = some (form, rest)) : ∃ n d, form = .rational n d ∧ 0 ≤ d.toInt := by
  simp only [rational?, Option.bind_eq_bind, Option.bind_eq_some_iff] at taken
  obtain ⟨_, _, taken⟩ := taken
  split at taken
  · simp only [Option.bind_eq_some_iff, Option.pure_def, Option.some.injEq, Prod.mk.injEq] at taken
    obtain ⟨_, _, n, _, d, made, same, _⟩ := taken
    refine ⟨n, d, same.symm, ?_⟩
    rw [Integer.toInt_of_ofInt? made, Integer.wholeNumber, if_neg (by decide)]
    exact Int.natCast_nonneg _
  · cases taken

theorem decimal_of_decimal? {cs rest : List Char} {form : Form}
    (taken : decimal? cs = some (form, rest)) : ∃ d, form = .decimal d := by
  simp only [decimal?, Option.bind_eq_bind, Option.bind_eq_some_iff] at taken
  obtain ⟨_, _, taken⟩ := taken
  split at taken
  · simp only [Option.bind_eq_some_iff, Option.pure_def, Option.some.injEq, Prod.mk.injEq] at taken
    obtain ⟨_, _, same, _⟩ := taken
    exact ⟨_, same.symm⟩
  · cases taken

/-- An atom that is no decimal is displayed as characters that read as it. -/
theorem atom?_chars {cs rest : List Char} {form : Form} (taken : atom? cs = some (form, rest))
    (noDecimal : ∀ d, form ≠ .decimal d) : atom? form.chars = some (form, []) := by
  cases atomRead_of_atom? taken with
  | decimal decimal =>
    obtain ⟨d, rfl⟩ := decimal_of_decimal? decimal
    exact absurd rfl (noDecimal d)
  | rational rational =>
    obtain ⟨n, d, rfl, unsigned⟩ := rational_of_rational? rational
    exact atom?_of_rational n unsigned
  | integer integer =>
    obtain ⟨w, rfl⟩ := integer_of_integer? integer
    exact atom?_of_integer w
  | keyword colon named =>
    subst colon
    obtain ⟨rfl, apart⟩ := parts_of_identifier? named
    exact atom?_alone apart taken
  | symbol named =>
    obtain ⟨rfl, apart⟩ := parts_of_identifier? named
    rw [chars_symbolForm]
    exact atom?_alone apart taken

/-! ### Strings -/

theorem mem_of_readableEscapes {c : Char} (escaped : Text.quotedChar c ∈ readableEscapes) :
    c ∈ ['"', '\\', '\n', '\t', '\r'] := by
  unfold Text.quotedChar at escaped
  split at escaped
  iterate 5 simp
  · exact absurd escaped (by decide)
  · split at escaped <;> simp [readableEscapes] at escaped

/-- A legible character is read back from what it is displayed as. -/
theorem stringBody_quotedChar {c : Char} (legible : LegibleChar c) (rest : List Char) :
    stringBody (Text.quotedChar c ++ rest) =
      (stringBody rest).map fun (text, rest) => (c :: text, rest) := by
  rcases legible with verbatim | escaped
  · have noQuote : c ≠ '"' := by rintro rfl; cases verbatim
    have noBackslash : c ≠ '\\' := by rintro rfl; cases verbatim
    rw [verbatim, List.singleton_append, stringBody_cons_of_ne noQuote noBackslash]
  · have escaped := mem_of_readableEscapes escaped
    simp only [List.mem_cons, List.not_mem_nil, or_false] at escaped
    rcases escaped with rfl | rfl | rfl | rfl | rfl <;> rfl

theorem stringBody_quoted {text : List Char} (legible : ∀ c ∈ text, LegibleChar c)
    (after : List Char) :
    stringBody (text.flatMap Text.quotedChar ++ '"' :: after) = .ok (text, after) := by
  induction text with
  | nil => rfl
  | cons c text ih =>
    obtain ⟨first, others⟩ := List.forall_mem_cons.mp legible
    rw [List.flatMap_cons, List.append_assoc, stringBody_quotedChar first, ih others]
    rfl

/-! ### Forms -/

/-- What a form is displayed as starts with the form again, unless a symbol goes on after it. -/
def Rereads (form : Form) : Prop :=
  ∀ after, Apart after → Datum (form.chars ++ after) form after

theorem rereads_of_atom {form : Form} (alone : atom? form.chars = some (form, [])) :
    Rereads form := by
  intro after apart
  refine .atom ?_
  rw [atom?_append apart, alone]
  rfl

theorem gap_blank (cs : List Char) : Gap (' ' :: cs) cs :=
  .blank (by decide) (.done cs)

/-- Displayed elements read back up to the bracket after them. -/
theorem forms_elementChars (close : Char) (bracket : isSymbolPart close = false)
    (after : List Char) : ∀ {elements : List Form}, (∀ e ∈ elements, Rereads e) →
    Forms (Form.elementChars elements ++ close :: after) elements (close :: after)
  | [], _ => .nil (.done _)
  | [e], rereads => by
    have datum := rereads e (by simp) (close :: after) (.cons bracket)
    exact .cons (.done _) datum (.nil (.done _))
  | e :: f :: rest, rereads => by
    obtain ⟨first, others⟩ := List.forall_mem_cons.mp rereads
    have datum := first (' ' :: (Form.elementChars (f :: rest) ++ close :: after))
      (.cons (by decide))
    have tail := forms_elementChars close bracket after others
    rw [Form.elementChars, List.append_assoc, List.cons_append]
    · exact .cons (.done _) datum (.afterGap (gap_blank _) tail)
    · simp

/-- Displayed entries read back as their keys and values in turn. -/
theorem forms_entryChars (close : Char) (bracket : isSymbolPart close = false)
    (after : List Char) : ∀ {entries : List (Form × Form)},
    (∀ e ∈ entries, Rereads e.1 ∧ Rereads e.2) →
    Forms (Form.entryChars entries ++ close :: after)
      (entries.flatMap fun e => [e.1, e.2]) (close :: after)
  | [], _ => .nil (.done _)
  | [(k, v)], rereads => by
    obtain ⟨key, value⟩ := rereads (k, v) (by simp)
    have keyDatum := key (' ' :: (v.chars ++ close :: after)) (.cons (by decide))
    have valueDatum := value (close :: after) (.cons bracket)
    rw [Form.entryChars, List.append_assoc, List.cons_append]
    exact .cons (.done _) keyDatum (.cons (gap_blank _) valueDatum (.nil (.done _)))
  | (k, v) :: entry :: rest, rereads => by
    obtain ⟨⟨key, value⟩, others⟩ := List.forall_mem_cons.mp rereads
    have tail := forms_entryChars close bracket after others
    have valueDatum := value (',' :: ' ' :: (Form.entryChars (entry :: rest) ++ close :: after))
      (.cons (by decide))
    have keyDatum := key (' ' :: (v.chars ++
      ',' :: ' ' :: (Form.entryChars (entry :: rest) ++ close :: after))) (.cons (by decide))
    have comma : Gap (',' :: ' ' :: (Form.entryChars (entry :: rest) ++ close :: after))
        (Form.entryChars (entry :: rest) ++ close :: after) :=
      .blank (by decide) (gap_blank _)
    rw [Form.entryChars, List.append_assoc, List.append_assoc, List.cons_append, List.cons_append,
      List.cons_append]
    · exact .cons (.done _) keyDatum (.cons (gap_blank _) valueDatum (.afterGap comma tail))
    · simp

theorem rereads_list {elements : List Form} (rereads : ∀ e ∈ elements, Rereads e) :
    Rereads (.list elements) := by
  intro after _
  rw [Form.chars, List.cons_append, List.cons_append, List.append_assoc]
  exact .list (forms_elementChars ')' (by decide) after rereads)

theorem rereads_vector {elements : List Form} (rereads : ∀ e ∈ elements, Rereads e) :
    Rereads (.vector elements) := by
  intro after _
  rw [Form.chars, List.cons_append, List.cons_append, List.append_assoc]
  exact .vector (forms_elementChars ']' (by decide) after rereads)

/-- A set reads back if none of its elements is dropped. -/
theorem rereads_set {elements : List Form} (rereads : ∀ e ∈ elements, Rereads e)
    (distinct : Form.setOf elements = .set elements) : Rereads (.set elements) := by
  intro after _
  have datum := Datum.set (forms_elementChars '\x7d' (by decide) after rereads)
  rw [Form.chars, List.cons_append, List.cons_append, List.cons_append, List.cons_append,
    List.append_assoc]
  rwa [distinct] at datum

theorem pairs_flatMap (entries : List (Form × Form)) :
    Form.pairs (entries.flatMap fun e => [e.1, e.2]) = entries := by
  induction entries with
  | nil => rfl
  | cons entry rest ih =>
    rw [List.flatMap_cons]
    exact congrArg (entry :: ·) ih

theorem even_flatMap (entries : List (Form × Form)) :
    (entries.flatMap fun e => [e.1, e.2]).length % 2 = 0 := by
  induction entries with
  | nil => rfl
  | cons entry rest ih =>
    simp only [List.flatMap_cons, List.length_append, List.length_cons, List.length_nil]
    omega

theorem rereads_map {entries : List (Form × Form)}
    (rereads : ∀ e ∈ entries, Rereads e.1 ∧ Rereads e.2) : Rereads (.map entries) := by
  intro after _
  have inner := forms_entryChars '\x7d' (by decide) after rereads
  have datum := Datum.map inner (even_flatMap entries)
  rw [Form.chars, List.cons_append, List.cons_append, List.append_assoc]
  rwa [pairs_flatMap] at datum

/-! ### What the reader produces -/

mutual

/-- Every legible form that the grammar derives reads back. -/
theorem Datum.rereads {cs rest : List Char} {form : Form} (derived : Datum cs form rest)
    (legible : form.Legible) : Rereads form := by
  match derived with
  | .list inner => exact rereads_list fun e member => inner.rereads e member (legible.part member)
  | .vector inner =>
    exact rereads_vector fun e member => inner.rereads e member (legible.part member)
  | .map inner even =>
    rename_i forms
    refine rereads_map fun entry member => ?_
    obtain ⟨key, value⟩ := Form.mem_parts_map member
    have among := flatMap_pairs even
    exact ⟨inner.rereads entry.1 (among ▸ key) (legible.part key),
      inner.rereads entry.2 (among ▸ value) (legible.part value)⟩
  | .set inner =>
    rename_i forms
    obtain ⟨kept, among, same, distinct⟩ := Form.exists_setOf forms
    rw [same] at legible ⊢
    exact rereads_set (fun e member => inner.rereads e (among e member) (legible.part member))
      distinct
  | .quote before datum =>
    have quoted := datum.rereads (legible.part (by simp [Form.quote, Form.parts]))
    have mark : Rereads (.symbol "quote") := rereads_of_atom rfl
    exact rereads_list (List.forall_mem_cons.mpr ⟨mark, List.forall_mem_singleton.mpr quoted⟩)
  | .string closed =>
    rename_i text
    intro after _
    have shown := legible.strings _ .self
    rw [String.toList_ofList] at shown
    rw [Form.chars, String.toList_ofList, Text.quoted, List.cons_append, List.cons_append,
      List.append_assoc]
    exact .string (stringBody_quoted shown after)
  | .atom taken =>
    refine rereads_of_atom (atom?_chars taken ?_)
    rintro d rfl
    exact legible.noDecimal d .self

theorem Forms.rereads {cs rest : List Char} {forms : List Form} (derived : Forms cs forms rest) :
    ∀ form ∈ forms, form.Legible → Rereads form := by
  match derived with
  | .nil _ => exact fun _ member => absurd member List.not_mem_nil
  | .cons before datum others =>
    refine List.forall_mem_cons.mpr ⟨?_, others.rereads⟩
    intro legible
    exact datum.rereads legible

end

end Reader

/-- Displaying and reading are inverse on what the reader produces: a form among those of any text
that can be read, if it holds no decimal and its strings are displayed legibly, is displayed as a
text that reads as this one form. -/
theorem read_display {text : String} {forms : List Form} (readable : read text = .ok forms)
    {form : Form} (member : form ∈ forms) (legible : form.Legible) :
    read form.display = .ok [form] := by
  have derived : Reader.Forms text.toList forms [] := Reader.readChars_eq_ok_iff.mp readable
  have datum := derived.rereads form member legible [] .nil
  rw [List.append_nil] at datum
  rw [Form.display, Reader.read_ofList]
  exact Reader.readChars_of_datum datum

/-- A set with a repeated element, a string with a line break, and a ratio with a sign. -/
theorem read_display_list :
    read "(#\x7bx x\x7d \"a\\nb\" +1/02) ; twice" =
      .ok [.list [.set [.symbol "x"], .string "a\nb", .rational 1 2]] ∧
    read "(#\x7bx\x7d \"a\\nb\" 1/2)" =
      .ok [.list [.set [.symbol "x"], .string "a\nb", .rational 1 2]] := by
  have twice : Form.setOf [.symbol "x", .symbol "x"] = .set [.symbol "x"] := by
    simp [Form.setOf, Form.same]
  have set : Reader.Datum ("#\x7bx x\x7d \"a\\nb\" +1/02) ; twice".toList) (.set [.symbol "x"])
      (" \"a\\nb\" +1/02) ; twice".toList) :=
    twice ▸ .set (.cons (.done _) (.atom rfl) (.cons (.blank rfl (.done _)) (.atom rfl)
      (.nil (.done _))))
  have derived : Reader.Forms ("(#\x7bx x\x7d \"a\\nb\" +1/02) ; twice".toList)
      [.list [.set [.symbol "x"], .string "a\nb", .rational 1 2]] [] :=
    .cons (.done _) (.list (.cons (.done _) set (.cons (.blank rfl (.done _)) (.string rfl)
      (.cons (.blank rfl (.done _)) (.atom rfl) (.nil (.done _))))))
      (.nil (.blank rfl (.comment (.done _))))
  have readable : read "(#\x7bx x\x7d \"a\\nb\" +1/02) ; twice" =
      .ok [.list [.set [.symbol "x"], .string "a\nb", .rational 1 2]] :=
    Reader.readChars_eq_ok_iff.mpr derived
  have legible : Form.Legible (.list [.set [.symbol "x"], .string "a\nb", .rational 1 2]) := by
    refine .of_parts (by simp) (by simp) ?_
    simp only [Form.parts, List.forall_mem_cons]
    refine ⟨?_, ?_, ?_, fun _ member => absurd member List.not_mem_nil⟩
    · refine .of_parts (by simp) (by simp) (List.forall_mem_singleton.mpr ?_)
      exact .of_parts (by simp) (by simp) (by simp [Form.parts])
    · refine .of_parts (by simp) ?_ (by simp [Form.parts])
      rintro s ⟨⟩
      decide
    · exact .of_parts (by simp) (by simp) (by simp [Form.parts])
  have shown : Form.display (.list [.set [.symbol "x"], .string "a\nb", .rational 1 2]) =
      "(#\x7bx\x7d \"a\\nb\" 1/2)" := by
    decide +kernel
  exact ⟨readable, shown ▸ read_display readable List.mem_cons_self legible⟩

end ScriptLisp
