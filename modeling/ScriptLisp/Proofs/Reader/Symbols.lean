import ScriptLisp.Proofs.Reader.RoundTrip

/-!
The symbols of a text. Wherever a symbol stands in what the reader makes of a text, its name is one
that the notation of symbols allows: a character that may start a symbol, and characters that may
follow one.

* `IsIdentifier`: such a name.
* `WellNamed`: every symbol in a form has such a name.
* `wellNamed_of_atom?`, `Datum.wellNamed`, `Forms.wellNamed`: so it is in atoms, and in every form
  that the grammar derives.
* `isIdentifier_of_read`: and in all that is read.
-/

namespace ScriptLisp.Reader

/-- A text that starts like a symbol and goes on like one. -/
def IsIdentifier (text : List Char) : Prop :=
  ∃ c cs, text = c :: cs ∧ isSymbolStart c = true ∧ ∀ d ∈ cs, isSymbolPart d = true

theorem IsIdentifier.isSymbolPart {text : List Char} (identifier : IsIdentifier text) :
    ∀ c ∈ text, isSymbolPart c = true := by
  obtain ⟨first, others, rfl, start, following⟩ := identifier
  exact List.forall_mem_cons.mpr ⟨isSymbolPart_of_isSymbolStart start, following⟩

/-- What is taken as an identifier has the shape of one. -/
theorem isIdentifier_of_identifier? {cs rest : List Char} {text : String}
    (taken : identifier? cs = some (text, rest)) : IsIdentifier text.toList := by
  cases cs with
  | nil => cases taken
  | cons c cs =>
    by_cases start : isSymbolStart c = true
    · rw [identifier?, if_pos start] at taken
      cases taken
      exact ⟨c, _, String.toList_ofList, start, List.all_eq_true.mp List.all_takeWhile⟩
    · rw [identifier?, if_neg start] at taken
      cases taken

/-- Every symbol in a form has a name that the notation allows. -/
def WellNamed (form : Form) : Prop :=
  ∀ name, Form.Within Form.parts (.symbol name) form → IsIdentifier name.toList

/-- Names are looked for here and in the parts. -/
theorem WellNamed.of_parts {form : Form}
    (here : ∀ name, form = .symbol name → IsIdentifier name.toList)
    (below : ∀ part ∈ form.parts, WellNamed part) : WellNamed form := by
  intro name within
  cases within with
  | self => exact here name rfl
  | part member deeper => exact below _ member name deeper

/-- A form without parts that is no symbol has no names. -/
theorem WellNamed.of_single {form : Form} (noSymbol : ∀ name, form ≠ .symbol name)
    (single : form.parts = []) : WellNamed form := by
  refine .of_parts (fun name same => absurd same (noSymbol name)) ?_
  rw [single]
  exact List.forall_mem_nil _

/-! ### Atoms -/

theorem wellNamed_of_identifier? {cs rest : List Char} {text : String}
    (taken : identifier? cs = some (text, rest)) : WellNamed (symbolForm text) := by
  have symbol : WellNamed (.symbol text) := by
    refine .of_parts ?_ (List.forall_mem_nil _)
    rintro name ⟨⟩
    exact isIdentifier_of_identifier? taken
  unfold symbolForm
  split
  · exact .of_single (by simp) rfl
  · split
    · exact .of_single (by simp) rfl
    · split
      · exact .of_single (by simp) rfl
      · exact symbol

/-- The only atoms with a name are symbols. -/
theorem wellNamed_of_atom? {cs rest : List Char} {form : Form}
    (taken : atom? cs = some (form, rest)) : WellNamed form := by
  cases atomRead_of_atom? taken with
  | decimal decimal =>
    obtain ⟨d, rfl⟩ := decimal_of_decimal? decimal
    exact .of_single (by simp) rfl
  | rational rational =>
    obtain ⟨n, d, rfl, -⟩ := rational_of_rational? rational
    exact .of_single (by simp) rfl
  | integer integer =>
    obtain ⟨w, rfl⟩ := integer_of_integer? integer
    exact .of_single (by simp) rfl
  | keyword => exact .of_single (by simp) rfl
  | symbol named => exact wellNamed_of_identifier? named

/-! ### Forms -/

mutual

/-- In every form that the grammar derives the symbols are well named. -/
theorem Datum.wellNamed {cs rest : List Char} {form : Form} (derived : Datum cs form rest) :
    WellNamed form := by
  match derived with
  | .list inner => exact .of_parts (by simp) inner.wellNamed
  | .vector inner => exact .of_parts (by simp) inner.wellNamed
  | .map inner even =>
    refine .of_parts (by simp) fun part member => inner.wellNamed part ?_
    exact flatMap_pairs even ▸ member
  | .set inner =>
    rename_i forms
    obtain ⟨kept, among, same, -⟩ := Form.exists_setOf forms
    rw [same]
    exact .of_parts (by simp) fun e member => inner.wellNamed e (among e member)
  | .quote before datum =>
    have mark : atom? "quote".toList = some (.symbol "quote", []) := rfl
    refine .of_parts (by simp [Form.quote]) ?_
    exact List.forall_mem_cons.mpr
      ⟨wellNamed_of_atom? mark, List.forall_mem_singleton.mpr datum.wellNamed⟩
  | .string closed => exact .of_single (by simp) rfl
  | .atom taken => exact wellNamed_of_atom? taken

/-- Along a derivation of several forms. -/
theorem Forms.wellNamed {cs rest : List Char} {forms : List Form} (derived : Forms cs forms rest) :
    ∀ form ∈ forms, WellNamed form := by
  match derived with
  | .nil _ => exact List.forall_mem_nil _
  | .cons before datum others =>
    exact List.forall_mem_cons.mpr ⟨datum.wellNamed, others.wellNamed⟩

end

end ScriptLisp.Reader

namespace ScriptLisp

/-- The name of a symbol anywhere in what is read is an identifier. -/
theorem isIdentifier_of_read {text : String} {forms : List Form} {form : Form} {name : String}
    (readable : read text = .ok forms) (member : form ∈ forms)
    (within : Form.Within Form.parts (.symbol name) form) :
    Reader.IsIdentifier name.toList :=
  (Reader.readChars_eq_ok_iff.mp readable).wellNamed form member name within

end ScriptLisp
