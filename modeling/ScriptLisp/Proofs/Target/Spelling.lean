import Mathlib.Data.List.Nodup
import ScriptLisp.Target.Spelling

/-!
No two names are spelled alike. An escape word begins with two underscores and no third one, so in a
name without adjacent underscores it is seen from the spelling which characters were escaped, also
where single underscores stand beside an escape word. The substitutes of reserved words begin in the
same way, but none of them begins with an escape word.

* `Separated`: no two underscores are adjacent.
* `exists_escape_of_beginsWord`: a spelling begins like a word only if the name begins with an
  escaped character.
* `escaped_injective`: escaping alone is injective.
* `Lawful`, `lawful`: what the tables of a target must satisfy, and that they do.
* `mangle_eq_iff`: equal spellings have equal names.
-/

namespace ScriptLisp.Spelling

/-! ### Characters -/

/-- Whether a text begins with two underscores and no third one. -/
def beginsWord : List Char → Bool
  | '_' :: '_' :: c :: _ => c != '_'
  | _ => false

theorem beginsWord_iff {cs : List Char} :
    beginsWord cs = true ↔ ∃ c rest, cs = '_' :: '_' :: c :: rest ∧ c ≠ '_' := by
  constructor
  · intro beginning
    unfold beginsWord at beginning
    split at beginning
    · exact ⟨_, _, rfl, bne_iff_ne.mp beginning⟩
    · cases beginning
  · rintro ⟨c, rest, rfl, other⟩
    exact bne_iff_ne.mpr other

theorem beginsWord_append {word : List Char} (rest : List Char)
    (beginning : beginsWord word = true) : beginsWord (word ++ rest) = true := by
  obtain ⟨c, tail, rfl, other⟩ := beginsWord_iff.mp beginning
  exact beginsWord_iff.mpr ⟨c, tail ++ rest, rfl, other⟩

theorem beginsWord_of_mem_escapes : ∀ escape ∈ escapes, beginsWord escape.2.toList = true := by
  decide

/-- No escape word begins with another one. -/
theorem escapes_prefixFree : ∀ escape ∈ escapes, ∀ other ∈ escapes,
    escape.2.toList <+: other.2.toList → escape = other := by
  decide +kernel

/-- So a text begins with one escape word only. -/
theorem escape_unique {escape other : Char × String} {rest tail : List Char}
    (member : escape ∈ escapes) (memberToo : other ∈ escapes)
    (same : escape.2.toList ++ rest = other.2.toList ++ tail) : escape = other := by
  have first : escape.2.toList <+: other.2.toList ++ tail := same ▸ List.prefix_append _ rest
  have second : other.2.toList <+: other.2.toList ++ tail := List.prefix_append _ tail
  rcases List.prefix_or_prefix_of_prefix first second with shorter | longer
  · exact escapes_prefixFree _ member _ memberToo shorter
  · exact (escapes_prefixFree _ memberToo _ member longer).symm

/-- A character is escaped by a word, or stands for itself. -/
theorem escapeChar_cases (c : Char) :
    (∃ word, (c, word) ∈ escapes ∧ escapeChar c = word.toList) ∨
      (∀ word, (c, word) ∉ escapes) ∧ escapeChar c = [c] := by
  rw [escapeChar]
  cases found : escapes.lookup c with
  | some word =>
    obtain ⟨before, after, table, -⟩ := List.lookup_eq_some_iff.mp found
    exact .inl ⟨word, table ▸ List.mem_append_right _ List.mem_cons_self, rfl⟩
  | none =>
    refine .inr ⟨fun word member => ?_, rfl⟩
    have other := List.lookup_eq_none_iff.mp found (c, word) member
    simp at other

/-- No two underscores are adjacent. -/
def Separated (cs : List Char) : Prop :=
  ¬ ['_', '_'] <:+: cs

instance (cs : List Char) : Decidable (Separated cs) :=
  inferInstanceAs (Decidable (¬ _))

theorem Separated.tail {c : Char} {cs : List Char} (separated : Separated (c :: cs)) :
    Separated cs :=
  fun within => separated (within.trans (List.suffix_cons c cs).isInfix)

theorem not_separated_of_beginsWord {cs : List Char} (beginning : beginsWord cs = true) :
    ¬ Separated cs := by
  obtain ⟨c, rest, rfl, -⟩ := beginsWord_iff.mp beginning
  intro separated
  exact separated (List.prefix_append ['_', '_'] (c :: rest)).isInfix

/-! ### Escaping -/

/-- The text of a name with its characters escaped one by one. -/
abbrev escaped (cs : List Char) : List Char :=
  cs.flatMap escapeChar

theorem escaped_cons (c : Char) (cs : List Char) :
    escaped (c :: cs) = escapeChar c ++ escaped cs :=
  List.flatMap_cons

theorem beginsWord_escaped {c : Char} {word : String} (cs : List Char)
    (member : (c, word) ∈ escapes) (spelled : escapeChar c = word.toList) :
    beginsWord (escaped (c :: cs)) = true := by
  rw [escaped_cons, spelled]
  exact beginsWord_append _ (beginsWord_of_mem_escapes _ member)

theorem escapeChar_of_not_beginsWord {c : Char} {cs : List Char}
    (noWord : ¬ beginsWord (escaped (c :: cs)) = true) : escapeChar c = [c] := by
  rcases escapeChar_cases c with ⟨word, member, spelled⟩ | ⟨-, plain⟩
  · exact absurd (beginsWord_escaped cs member spelled) noWord
  · exact plain

/-- Only an escaped character makes an escaped text begin like a word. With an underscore before
it, the text begins with three. -/
theorem exists_escape_of_beginsWord {c : Char} {cs : List Char} (separated : Separated (c :: cs))
    (beginning : beginsWord (escaped (c :: cs)) = true) :
    ∃ word, (c, word) ∈ escapes ∧ escapeChar c = word.toList := by
  rcases escapeChar_cases c with special | ⟨-, plain⟩
  · exact special
  obtain ⟨third, rest, spelled, other⟩ := beginsWord_iff.mp beginning
  rw [escaped_cons, plain, List.singleton_append] at spelled
  obtain ⟨rfl, following⟩ := List.cons.inj spelled
  cases cs with
  | nil => cases following
  | cons d cs =>
    rcases escapeChar_cases d with ⟨word, member, nextSpelled⟩ | ⟨-, nextPlain⟩
    · obtain ⟨_, _, same, -⟩ := beginsWord_iff.mp (beginsWord_escaped cs member nextSpelled)
      rw [following] at same
      exact absurd (List.cons.inj (List.cons.inj same).2).1 other
    · rw [escaped_cons, nextPlain, List.singleton_append] at following
      obtain ⟨rfl, -⟩ := List.cons.inj following
      exact absurd (List.prefix_append ['_', '_'] cs).isInfix separated

theorem escaped_ne_nil {c : Char} {cs : List Char} : escaped (c :: cs) ≠ [] := by
  rw [escaped_cons]
  rcases escapeChar_cases c with ⟨word, member, spelled⟩ | ⟨-, plain⟩
  · obtain ⟨_, _, same, -⟩ := beginsWord_iff.mp (beginsWord_of_mem_escapes _ member)
    simp [spelled, same]
  · simp [plain]

/-- Escaping is injective on separated texts. -/
theorem escaped_injective {cs ds : List Char} (separated : Separated cs)
    (separatedToo : Separated ds) (same : escaped cs = escaped ds) : cs = ds := by
  induction cs generalizing ds with
  | nil =>
    cases ds with
    | nil => rfl
    | cons d ds => exact absurd same.symm escaped_ne_nil
  | cons c cs ih =>
    cases ds with
    | nil => exact absurd same escaped_ne_nil
    | cons d ds =>
      have next := ih separated.tail separatedToo.tail
      -- whether the first character is escaped is seen from the spelling, the same for both
      by_cases beginning : beginsWord (escaped (c :: cs)) = true
      · obtain ⟨word, member, spelled⟩ := exists_escape_of_beginsWord separated beginning
        obtain ⟨other, memberToo, spelledToo⟩ :=
          exists_escape_of_beginsWord separatedToo (same ▸ beginning)
        rw [escaped_cons, escaped_cons, spelled, spelledToo] at same
        obtain ⟨rfl, rfl⟩ := Prod.mk.inj (escape_unique member memberToo same)
        rw [next (List.append_cancel_left same)]
      · have plain := escapeChar_of_not_beginsWord beginning
        rw [same] at beginning
        rw [escaped_cons, escaped_cons, plain, escapeChar_of_not_beginsWord beginning] at same
        obtain ⟨rfl, rest⟩ := List.cons.inj same
        rw [next rest]

/-- A separated spelling has no escape word in it, and shows the name itself. -/
theorem escaped_of_separated {cs : List Char} (separated : Separated (escaped cs)) :
    escaped cs = cs := by
  induction cs with
  | nil => rfl
  | cons c cs ih =>
    have plain := escapeChar_of_not_beginsWord fun beginning =>
      not_separated_of_beginsWord beginning separated
    rw [escaped_cons, plain, List.singleton_append] at separated ⊢
    rw [ih separated.tail]

/-! ### The tables of a target -/

/-- The substitutes of reserved words are told apart from each other and from spellings with escape
words. -/
structure Lawful (spelling : Spelling) : Prop where
  substitutes_nodup : (spelling.reserved.map (·.2)).Nodup
  beginsWord_of_mem : ∀ entry ∈ spelling.reserved, beginsWord entry.2.toList = true
  no_escape : ∀ entry ∈ spelling.reserved, ∀ escape ∈ escapes,
    ¬ escape.2.toList <+: entry.2.toList

theorem lawful (target : Target) : target.spelling.Lawful := by
  cases target with
  | javascript => constructor <;> decide +kernel
  | ruby => constructor <;> decide +kernel

variable {spelling : Spelling} {name other : String}

/-- A name stays as it is, has a substitute, or is escaped. -/
theorem mangle_cases (spelling : Spelling) (name : String) :
    (spelling.isOperatorToken name = true ∧ spelling.mangle name = name) ∨
      (∃ word, (name, word) ∈ spelling.reserved ∧ spelling.mangle name = word) ∨
      (spelling.mangle name).toList = escaped name.toList := by
  rw [mangle]
  by_cases operator : spelling.isOperatorToken name = true
  · rw [if_pos operator]
    exact .inl ⟨operator, rfl⟩
  · rw [if_neg operator]
    cases found : spelling.substitute? name with
    | some word =>
      obtain ⟨before, after, table, -⟩ := List.lookup_eq_some_iff.mp found
      exact .inr (.inl ⟨word, table ▸ List.mem_append_right _ List.mem_cons_self, rfl⟩)
    | none => exact .inr (.inr String.toList_ofList)

/-- A name with a separated spelling is that spelling. -/
theorem Lawful.mangle_of_separated (lawful : spelling.Lawful)
    (separated : Separated (spelling.mangle name).toList) : spelling.mangle name = name := by
  rcases mangle_cases spelling name with ⟨-, same⟩ | ⟨word, member, same⟩ | same
  · exact same
  · rw [same] at separated
    exact absurd separated (not_separated_of_beginsWord (lawful.beginsWord_of_mem _ member))
  · rw [same] at separated
    rw [escaped_of_separated separated] at same
    exact String.toList_inj.mp same

/-- No separated name is escaped to the substitute of a reserved word. -/
theorem Lawful.substitute_ne_escaped (lawful : spelling.Lawful) {entry : String × String}
    (member : entry ∈ spelling.reserved) {cs : List Char} (separated : Separated cs) :
    entry.2.toList ≠ escaped cs := by
  intro same
  have beginning := lawful.beginsWord_of_mem entry member
  rw [same] at beginning
  cases cs with
  | nil => cases beginning
  | cons c cs =>
    obtain ⟨word, isEscape, spelled⟩ := exists_escape_of_beginsWord separated beginning
    rw [escaped_cons, spelled] at same
    exact lawful.no_escape entry member _ isEscape (same ▸ List.prefix_append _ _)

theorem Lawful.substitute_injective (lawful : spelling.Lawful) {word : String}
    (member : (name, word) ∈ spelling.reserved) (memberToo : (other, word) ∈ spelling.reserved) :
    name = other :=
  congrArg Prod.fst (List.inj_on_of_nodup_map lawful.substitutes_nodup member memberToo rfl)

/-- A separated name whose spelling is not separated has a substitute or is escaped. -/
theorem substituted_or_escaped (separated : Separated name.toList)
    (changed : ¬ Separated (spelling.mangle name).toList) :
    (∃ word, (name, word) ∈ spelling.reserved ∧ spelling.mangle name = word) ∨
      (spelling.mangle name).toList = escaped name.toList := by
  rcases mangle_cases spelling name with ⟨-, same⟩ | others
  · rw [same] at changed
    exact absurd separated changed
  · exact others

/-- Two separated names have the same spelling only if they are the same. -/
theorem Lawful.mangle_injective (lawful : spelling.Lawful) (separated : Separated name.toList)
    (separatedToo : Separated other.toList) (same : spelling.mangle name = spelling.mangle other) :
    name = other := by
  by_cases visible : Separated (spelling.mangle name).toList
  · calc name = spelling.mangle name := (lawful.mangle_of_separated visible).symm
      _ = spelling.mangle other := same
      _ = other := lawful.mangle_of_separated (same ▸ visible)
  · have second := substituted_or_escaped separatedToo (same ▸ visible)
    rw [← same] at second
    rcases substituted_or_escaped separated visible with ⟨word, member, rfl⟩ | given
    · rcases second with ⟨_, memberToo, rfl⟩ | given
      · exact lawful.substitute_injective member memberToo
      · exact absurd given (lawful.substitute_ne_escaped member separatedToo)
    · rcases second with ⟨_, memberToo, rfl⟩ | givenToo
      · exact absurd given (lawful.substitute_ne_escaped memberToo separated)
      · exact String.toList_inj.mp
          (escaped_injective separated separatedToo (given.symm.trans givenToo))

end ScriptLisp.Spelling

namespace ScriptLisp.Target

/-- In each target, names without adjacent underscores are spelled alike only if they are the
same. -/
theorem mangle_eq_iff (target : Target) {name other : String}
    (separated : Spelling.Separated name.toList) (separatedToo : Spelling.Separated other.toList) :
    target.spelling.mangle name = target.spelling.mangle other ↔ name = other := by
  constructor
  · exact (Spelling.lawful target).mangle_injective separated separatedToo
  · exact congrArg target.spelling.mangle

/-- An underscore before an escaped character and one after it make a run of three each. -/
theorem mangle_eq_iff_runs :
    Spelling.Separated "a_-".toList ∧ Spelling.Separated "a-_".toList ∧
      Target.ruby.spelling.mangle "a_-" = "a___DASH__" ∧
      Target.ruby.spelling.mangle "a-_" = "a__DASH___" ∧
      (Target.ruby.spelling.mangle "a_-" = Target.ruby.spelling.mangle "a-_" ↔ "a_-" = "a-_") := by
  have first : Spelling.Separated "a_-".toList := by decide
  have second : Spelling.Separated "a-_".toList := by decide
  exact ⟨first, second, by decide +kernel, by decide +kernel, mangle_eq_iff .ruby first second⟩

end ScriptLisp.Target
