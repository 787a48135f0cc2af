import ScriptLisp.Proofs.Target.Identifier

/-!
Spelling a spelling again changes nothing. The three rules of a target do not meet each other: no
operator and no substitute is a reserved word, and no escaped name is one either, since a reserved
word holds no escape word. Ruby comes close to it, with reserved words such as `__FILE__` that look
like escape words.

* `escapable`: the characters that have an escape word; `escaped_cases` says what escaping does
  with and without them.
* `Unmixed`, `unmixed`: what the tables of a target must satisfy, and that they do.
* `Canonical`, `Unmixed.canonical_mangle`, `Unmixed.mangle_eq_self_iff`: every spelling is
  canonical, and the canonical names are those that are spelled as they are.
* `mangle_canonical`: no spelling is reserved or holds an escapable character, operators apart, and
  spelling is idempotent.
-/

namespace ScriptLisp.Spelling

/-! ### Escapable characters -/

/-- The characters that have an escape word. -/
def escapable : List Char :=
  escapes.map (·.1)

theorem isWordChar_of_mem_escapable : ∀ c ∈ escapable, isWordChar c = false := by
  decide +kernel

theorem not_mem_escapable_of_isWordChar {c : Char} (isWord : isWordChar c = true) :
    c ∉ escapable := by
  intro member
  rw [isWordChar_of_mem_escapable c member] at isWord
  cases isWord

/-- Exactly the escapable characters are replaced. -/
theorem escapeChar_cases_escapable (c : Char) :
    (c ∈ escapable ∧ ∃ escape ∈ escapes, escapeChar c = escape.2.toList) ∨
      c ∉ escapable ∧ escapeChar c = [c] := by
  rcases escapeChar_cases c with ⟨word, listed, spelled⟩ | ⟨unlisted, plain⟩
  · exact .inl ⟨List.mem_map_of_mem listed, (c, word), listed, spelled⟩
  · right
    refine ⟨?_, plain⟩
    intro member
    obtain ⟨escape, listed, rfl⟩ := List.mem_map.mp member
    exact unlisted escape.2 listed

/-- Escaping leaves no escapable character. -/
theorem not_mem_escapable_of_mem_escaped {c : Char} {cs : List Char} (member : c ∈ escaped cs) :
    c ∉ escapable := by
  obtain ⟨d, -, spelled⟩ := List.mem_flatMap.mp member
  rcases escapeChar_cases_escapable d with ⟨-, escape, listed, same⟩ | ⟨notEscapable, plain⟩
  · rw [same] at spelled
    exact not_mem_escapable_of_isWordChar (isWordChar_of_mem_escapes _ listed c spelled)
  · rw [plain, List.mem_singleton] at spelled
    rw [spelled]
    exact notEscapable

theorem escaped_eq_self {cs : List Char} (notEscapable : ∀ c ∈ cs, c ∉ escapable) :
    escaped cs = cs := by
  induction cs with
  | nil => rfl
  | cons c cs ih =>
    obtain ⟨here, behind⟩ := List.forall_mem_cons.mp notEscapable
    rcases escapeChar_cases_escapable c with ⟨special, -⟩ | ⟨-, plain⟩
    · exact absurd special here
    · rw [escaped_cons, plain, ih behind, List.singleton_append]

/-- A text without escapable characters stays as it is; any other one holds an escape word
afterwards. -/
theorem escaped_cases (cs : List Char) :
    escaped cs = cs ∨ ∃ escape ∈ escapes, escape.2.toList <:+: escaped cs := by
  by_cases notEscapable : ∀ c ∈ cs, c ∉ escapable
  · exact .inl (escaped_eq_self notEscapable)
  · right
    push Not at notEscapable
    obtain ⟨c, member, special⟩ := notEscapable
    obtain ⟨before, after, rfl⟩ := List.append_of_mem member
    rcases escapeChar_cases_escapable c with ⟨-, escape, listed, same⟩ | ⟨plain, -⟩
    · refine ⟨escape, listed, escaped before, escaped after, ?_⟩
      simp only [escaped, List.flatMap_append, List.flatMap_cons, same, List.append_assoc]
    · exact absurd special plain

/-! ### The tables of a target -/

/-- What one rule gives, no other one takes up. -/
structure Unmixed (spelling : Spelling) : Prop where
  operator_free : ∀ entry ∈ spelling.reserved, entry.1 ∉ spelling.operatorTokens
  substitute_free : ∀ entry ∈ spelling.reserved, ∀ other ∈ spelling.reserved, entry.1 ≠ other.2
  substitute_plain : ∀ entry ∈ spelling.reserved, ∀ c ∈ entry.2.toList, c ∉ escapable
  no_escape : ∀ entry ∈ spelling.reserved, ∀ escape ∈ escapes,
    ¬ escape.2.toList <:+: entry.1.toList

/-- The reserved words with adjacent underscores, which only Ruby has, are looked up one by one. -/
theorem reserved_of_not_separated (target : Target) : ∀ entry ∈ target.spelling.reserved,
    ¬ Separated entry.1.toList → (∀ other ∈ target.spelling.reserved, entry.1 ≠ other.2) ∧
      ∀ escape ∈ escapes, ¬ escape.2.toList <:+: entry.1.toList := by
  cases target with
  | javascript => decide +kernel
  | ruby => decide +kernel

theorem operator_not_reserved (target : Target) : ∀ entry ∈ target.spelling.reserved,
    entry.1 ∉ target.spelling.operatorTokens := by
  cases target with
  | javascript => decide +kernel
  | ruby => decide +kernel

theorem unmixed (target : Target) : target.spelling.Unmixed where
  operator_free := operator_not_reserved target
  substitute_free := by
    intro entry member other listed
    by_cases separated : Separated entry.1.toList
    · intro same
      rw [same] at separated
      have beginning := (lawful target).beginsWord_of_mem other listed
      exact not_separated_of_beginsWord beginning separated
    · exact (reserved_of_not_separated target entry member separated).1 other listed
  substitute_plain := by
    intro entry member c inWord
    have isWord := (isWordChar_of_mem_reserved target entry member).2 c inWord
    exact not_mem_escapable_of_isWordChar isWord
  no_escape := by
    intro entry member escape listed within
    by_cases separated : Separated entry.1.toList
    · have beginning := beginsWord_of_mem_escapes escape listed
      refine not_separated_of_beginsWord beginning ?_
      exact fun adjacent => separated (adjacent.trans within)
    · exact (reserved_of_not_separated target entry member separated).2 escape listed within

/-- An operator of the target, or a text that is not reserved and has nothing to escape. -/
def Canonical (spelling : Spelling) (name : String) : Prop :=
  spelling.isOperatorToken name = true ∨
    (∀ entry ∈ spelling.reserved, entry.1 ≠ name) ∧ ∀ c ∈ name.toList, c ∉ escapable

variable {spelling : Spelling} {name : String}

/-- None of the rules changes a canonical name. -/
theorem Canonical.mangle_eq (canonical : spelling.Canonical name) :
    spelling.mangle name = name := by
  rcases canonical with operator | ⟨unreserved, notEscapable⟩
  · rw [mangle, if_pos operator]
  · rcases mangle_cases spelling name with ⟨-, same⟩ | ⟨word, listed, -⟩ | same
    · exact same
    · exact absurd rfl (unreserved _ listed)
    · rw [escaped_eq_self notEscapable] at same
      exact String.toList_inj.mp same

namespace Unmixed

variable (unmixed : spelling.Unmixed)
include unmixed

/-- A reserved word is spelled as a substitute. -/
theorem mangle_reserved {entry : String × String} (member : entry ∈ spelling.reserved) :
    ∃ other ∈ spelling.reserved, spelling.mangle entry.1 = other.2 := by
  have noOperator : ¬ spelling.isOperatorToken entry.1 = true := by
    rw [isOperatorToken, List.contains_iff_mem]
    exact unmixed.operator_free entry member
  rw [mangle, if_neg noOperator]
  cases found : spelling.substitute? entry.1 with
  | some word =>
    obtain ⟨before, after, table, -⟩ := List.lookup_eq_some_iff.mp found
    exact ⟨(entry.1, word), table ▸ List.mem_append_right _ List.mem_cons_self, rfl⟩
  | none =>
    have other := List.lookup_eq_none_iff.mp found entry member
    simp at other

/-- No spelling is a reserved word. -/
theorem mangle_unreserved {entry : String × String} (member : entry ∈ spelling.reserved) :
    entry.1 ≠ spelling.mangle name := by
  intro reserved
  rcases mangle_cases spelling name with ⟨operator, same⟩ | ⟨word, listed, same⟩ | same
  · rw [isOperatorToken, List.contains_iff_mem] at operator
    rw [same] at reserved
    exact unmixed.operator_free entry member (reserved ▸ operator)
  · exact unmixed.substitute_free entry member _ listed (reserved.trans same)
  · rcases escaped_cases name.toList with unchanged | ⟨escape, listed, within⟩
    · -- the name would be the reserved word itself, whose spelling is a substitute
      rw [unchanged, String.toList_inj] at same
      obtain ⟨other, listed, substituted⟩ := unmixed.mangle_reserved member
      rw [reserved, same] at substituted
      exact unmixed.substitute_free entry member other listed (by rw [reserved, substituted])
    · rw [← same, ← reserved] at within
      exact unmixed.no_escape entry member escape listed within

/-- Only an operator keeps escapable characters. -/
theorem mangle_plain (noOperator : spelling.isOperatorToken name = false) {c : Char}
    (member : c ∈ (spelling.mangle name).toList) : c ∉ escapable := by
  rcases mangle_cases spelling name with ⟨operator, -⟩ | ⟨word, listed, same⟩ | same
  · simp [noOperator] at operator
  · rw [same] at member
    exact unmixed.substitute_plain _ listed c member
  · rw [same] at member
    exact not_mem_escapable_of_mem_escaped member

theorem canonical_mangle (name : String) : spelling.Canonical (spelling.mangle name) := by
  by_cases operator : spelling.isOperatorToken name = true
  · left
    rw [mangle, if_pos operator]
    exact operator
  · right
    rw [Bool.not_eq_true] at operator
    constructor
    · intro entry member
      exact unmixed.mangle_unreserved member
    · intro c member
      exact unmixed.mangle_plain operator member

/-- The canonical names are those that are spelled as they are. -/
theorem mangle_eq_self_iff : spelling.mangle name = name ↔ spelling.Canonical name := by
  constructor
  · intro same
    rw [← same]
    exact unmixed.canonical_mangle name
  · exact Canonical.mangle_eq

end Unmixed

end ScriptLisp.Spelling

namespace ScriptLisp.Target

open Spelling

/-- In each target, the spelling of a name is never a reserved word, it holds no escapable
character unless the name is an operator, and spelling it again gives the same text. -/
theorem mangle_canonical (target : Target) (name : String) :
    (∀ entry ∈ target.spelling.reserved, entry.1 ≠ target.spelling.mangle name) ∧
      (target.spelling.isOperatorToken name = false →
        ∀ c ∈ (target.spelling.mangle name).toList, c ∉ escapable) ∧
      target.spelling.mangle (target.spelling.mangle name) = target.spelling.mangle name := by
  have unmixed := Spelling.unmixed target
  refine ⟨?_, ?_, ?_⟩
  · intro entry member
    exact unmixed.mangle_unreserved member
  · intro noOperator c member
    exact unmixed.mangle_plain noOperator member
  · exact unmixed.mangle_eq_self_iff.mpr (unmixed.canonical_mangle name)

/-- The name `__FILE__!` holds a reserved word of Ruby, and its spelling an escape word as well. -/
theorem mangle_canonical_file :
    Target.ruby.spelling.mangle "__FILE__!" = "__FILE____BANG__" ∧
      ("__FILE__", "__SOURCE_FILE__") ∈ Target.ruby.spelling.reserved ∧
      "__FILE__" ≠ Target.ruby.spelling.mangle "__FILE__!" ∧
      Target.ruby.spelling.isOperatorToken "__FILE__!" = false ∧
      '_' ∈ (Target.ruby.spelling.mangle "__FILE__!").toList ∧ '_' ∉ escapable ∧
      Target.ruby.spelling.mangle "__FILE____BANG__" = "__FILE____BANG__" := by
  obtain ⟨unreserved, plain, again⟩ := mangle_canonical .ruby "__FILE__!"
  have spelled : Target.ruby.spelling.mangle "__FILE__!" = "__FILE____BANG__" := by
    decide +kernel
  have listed : ("__FILE__", "__SOURCE_FILE__") ∈ Target.ruby.spelling.reserved := by
    decide +kernel
  have noOperator : Target.ruby.spelling.isOperatorToken "__FILE__!" = false := by
    decide +kernel
  have member : '_' ∈ (Target.ruby.spelling.mangle "__FILE__!").toList := by
    rw [spelled]
    decide
  refine ⟨spelled, listed, unreserved _ listed, noOperator, member, plain noOperator _ member, ?_⟩
  rw [spelled] at again
  exact again

end ScriptLisp.Target
