import ScriptLisp.Proofs.Reader.Symbols
import ScriptLisp.Proofs.Target.Spelling

/-!
Which spellings are identifiers. Escape words and substitutes consist of letters and underscores,
but a symbol may hold marks that have no escape word. Apart from the dot, which separates the parts
of a name, these are the ampersand, the equals sign, the colon and the quote. They stay in the
spelling as they are, and nothing else in it is foreign to identifiers.

* `isWordChar`, `unescapedMarks`: the characters of identifiers, and the marks without an escape
  word.
* `foreign_mem_escapeChar_iff`, `foreign_mem_mangle_iff`: what is foreign in the spelling of a
  character and of a name.
* `mangle_isWord_iff`: the spelling of a symbol in a text is an identifier exactly if the symbol
  holds none of the marks.
-/

namespace ScriptLisp.Spelling

/-- A letter, a digit or an underscore. -/
def isWordChar (c : Char) : Bool :=
  Text.isAlphabetic c || c.isDigit || c == '_'

/-- The marks of symbols that have no escape word. -/
def unescapedMarks : List Char :=
  ['&', '=', ':', '\'', '.']

/-! ### The tables -/

theorem isWordChar_of_mem_escapes : ∀ escape ∈ escapes, ∀ c ∈ escape.2.toList,
    isWordChar c = true := by
  decide +kernel

/-- Reserved words and their substitutes are words. -/
theorem isWordChar_of_mem_reserved (target : Target) : ∀ entry ∈ target.spelling.reserved,
    (∀ c ∈ entry.1.toList, isWordChar c = true) ∧ ∀ c ∈ entry.2.toList, isWordChar c = true := by
  cases target with
  | javascript => decide +kernel
  | ruby => decide +kernel

/-- The marks that the reader allows in symbols, compared with the table of escapes. -/
theorem mark_cases : ∀ c ∈ '#' :: ':' :: '\'' :: Reader.symbolMarks,
    c = '_' ∨ c ∈ unescapedMarks ∨ ∃ escape ∈ escapes, escape.1 = c := by
  decide +kernel

theorem unescapedMarks_foreign : ∀ c ∈ unescapedMarks,
    isWordChar c = false ∧ ∀ escape ∈ escapes, escape.1 ≠ c := by
  decide +kernel

/-! ### Spellings -/

/-- Every character of a symbol is a word character, an unescaped mark or escaped. -/
theorem symbolPart_cases {c : Char} (part : Reader.isSymbolPart c = true) :
    isWordChar c = true ∨ c ∈ unescapedMarks ∨ ∃ escape ∈ escapes, escape.1 = c := by
  by_cases mark : c ∈ '#' :: ':' :: '\'' :: Reader.symbolMarks
  · rcases mark_cases c mark with rfl | others
    · exact .inl rfl
    · exact .inr others
  · left
    simp only [List.mem_cons, not_or] at mark
    have either : Text.isAlphabetic c = true ∨ c.isDigit = true := by
      simpa [Reader.isSymbolPart, Reader.isSymbolStart, mark] using part
    rcases either with letter | digit
    · simp [isWordChar, letter]
    · simp [isWordChar, digit]

/-- Only an unescaped mark brings a foreign character into the spelling, which is the mark. -/
theorem foreign_mem_escapeChar_iff {c d : Char} (part : Reader.isSymbolPart d = true) :
    c ∈ escapeChar d ∧ isWordChar c = false ↔ c = d ∧ d ∈ unescapedMarks := by
  constructor
  · rintro ⟨member, foreign⟩
    rcases escapeChar_cases d with ⟨word, escape, spelled⟩ | ⟨noEscape, plain⟩
    · rw [spelled] at member
      simp [isWordChar_of_mem_escapes _ escape c member] at foreign
    · rw [plain, List.mem_singleton] at member
      subst member
      rcases symbolPart_cases part with isWord | mark | ⟨escape, listed, rfl⟩
      · simp [isWord] at foreign
      · exact ⟨rfl, mark⟩
      · exact absurd listed (noEscape escape.2)
  · rintro ⟨rfl, mark⟩
    obtain ⟨foreign, noEscape⟩ := unescapedMarks_foreign c mark
    rcases escapeChar_cases c with ⟨word, escape, -⟩ | ⟨-, plain⟩
    · exact absurd rfl (noEscape _ escape)
    · simp [plain, foreign]

/-- The foreign characters in the spelling of a name are the unescaped marks of the name. -/
theorem foreign_mem_mangle_iff (target : Target) {name : String}
    (identifier : Reader.IsIdentifier name.toList)
    (noOperator : target.spelling.isOperatorToken name = false) (c : Char) :
    c ∈ (target.spelling.mangle name).toList ∧ isWordChar c = false ↔
      c ∈ name.toList ∧ c ∈ unescapedMarks := by
  rcases mangle_cases target.spelling name with ⟨operator, -⟩ | ⟨word, listed, same⟩ | same
  · simp [noOperator] at operator
  · obtain ⟨source, substitute⟩ := isWordChar_of_mem_reserved target _ listed
    rw [same]
    constructor
    · rintro ⟨member, foreign⟩
      simp [substitute c member] at foreign
    · rintro ⟨member, mark⟩
      have foreign := (unescapedMarks_foreign c mark).1
      simp [source c member] at foreign
  · rw [same]
    constructor
    · rintro ⟨member, foreign⟩
      obtain ⟨d, among, spelled⟩ := List.mem_flatMap.mp member
      obtain ⟨rfl, mark⟩ :=
        (foreign_mem_escapeChar_iff (identifier.isSymbolPart d among)).mp ⟨spelled, foreign⟩
      exact ⟨among, mark⟩
    · rintro ⟨member, mark⟩
      obtain ⟨spelled, foreign⟩ :=
        (foreign_mem_escapeChar_iff (identifier.isSymbolPart c member)).mpr ⟨rfl, mark⟩
      exact ⟨List.mem_flatMap.mpr ⟨c, member, spelled⟩, foreign⟩

end ScriptLisp.Spelling

namespace ScriptLisp.Target

open Spelling

/-- In each target, a symbol of a text that is no operator is spelled with letters, digits and
underscores, except that its unescaped marks stay; so its spelling is an identifier exactly if it
holds none of them. -/
theorem mangle_isWord_iff (target : Target) {text : String} {forms : List Form} {form : Form}
    {name : String} (readable : read text = .ok forms) (member : form ∈ forms)
    (within : Form.Within Form.parts (.symbol name) form)
    (noOperator : target.spelling.isOperatorToken name = false) :
    (∀ c, c ∈ (target.spelling.mangle name).toList ∧ isWordChar c = false ↔
        c ∈ name.toList ∧ c ∈ unescapedMarks) ∧
      ((∀ c ∈ (target.spelling.mangle name).toList, isWordChar c = true) ↔
        ∀ c ∈ name.toList, c ∉ unescapedMarks) := by
  have foreign := foreign_mem_mangle_iff target
    (isIdentifier_of_read readable member within) noOperator
  refine ⟨foreign, ?_, ?_⟩
  · intro isWord c inName mark
    obtain ⟨inSpelling, outside⟩ := (foreign c).mpr ⟨inName, mark⟩
    simp [isWord c inSpelling] at outside
  · intro unmarked c inSpelling
    by_contra outside
    obtain ⟨inName, mark⟩ := (foreign c).mp ⟨inSpelling, Bool.eq_false_iff.mpr outside⟩
    exact unmarked c inName mark

/-- The exclamation mark has an escape word, the colon has none. -/
theorem mangle_isWord_iff_colon :
    read "(set! a:b)" = .ok [.list [.symbol "set!", .symbol "a:b"]] ∧
      (∀ c ∈ (Target.javascript.spelling.mangle "set!").toList, isWordChar c = true) ∧
      ¬ ∀ c ∈ (Target.javascript.spelling.mangle "a:b").toList, isWordChar c = true := by
  have derived : Reader.Forms "(set! a:b)".toList [.list [.symbol "set!", .symbol "a:b"]] [] :=
    .cons (.done _) (.list (.cons (.done _) (.atom rfl) (.cons (.blank rfl (.done _)) (.atom rfl)
      (.nil (.done _))))) (.nil (.done _))
  have readable := Reader.readChars_eq_ok_iff.mpr derived
  refine ⟨readable, ?_, ?_⟩
  · have escaped := mangle_isWord_iff .javascript readable List.mem_cons_self
      (.part List.mem_cons_self .self) (by decide +kernel)
    exact escaped.2.mpr (by decide)
  · have kept := mangle_isWord_iff .javascript readable List.mem_cons_self
      (.part (List.mem_cons_of_mem _ List.mem_cons_self) .self) (by decide +kernel)
    exact fun isWord => absurd (kept.2.mp isWord) (by decide)

/-- The symbol `a&b` is neither qualified nor an operator, and its spelling is the same text. -/
theorem ampersand_in_spelling :
    read "a&b" = .ok [.symbol "a&b"] ∧ '/' ∉ "a&b".toList ∧ '.' ∉ "a&b".toList ∧
      ∀ target : Target, target.spelling.isOperatorToken "a&b" = false ∧
        target.spelling.mangle "a&b" = "a&b" ∧ isWordChar '&' = false := by
  refine ⟨Reader.readChars_eq_ok_iff.mpr ?_, by decide, by decide, ?_⟩
  · exact .cons (.done _) (.atom rfl) (.nil (.done _))
  · intro target
    cases target with
    | javascript => decide +kernel
    | ruby => decide +kernel

end ScriptLisp.Target
