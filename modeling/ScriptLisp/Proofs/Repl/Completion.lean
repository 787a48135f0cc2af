import ScriptLisp.Proofs.Text.Bytes
import ScriptLisp.Repl.Completion

/-!
Completion replaces the word before the cursor and nothing else. Wherever the cursor stands between
two characters of a line, the part from the start of the completion to the cursor is a whole number
of characters, and every candidate goes on from there. At the start of a command the candidates are
commands; elsewhere they are the known words that start with the last word before the cursor.

* `before_append`, `byteCount_toList`: bytes and characters of a line.
* `IsLastWord`, `isLastWord_lastWord`: the last word before the cursor.
* `IsKnown`, `mem_matchingWords_iff`, `matchingWords_sorted`: the words that continue a text.
* `StartsCommand`, `matchingCommands_eq`: the commands that do.
* `complete_exact`: what a completion is.
-/

namespace ScriptLisp.Repl

/-! ### Bytes of a line -/

theorem byteCount_toList (text : String) : byteCount text.toList = text.utf8ByteSize := by
  have counts : ∀ cs : List Char, byteCount cs = (cs.flatMap String.utf8EncodeChar).length := by
    intro cs
    induction cs with
    | nil => rfl
    | cons c cs ih =>
      rw [byteCount, ih, List.flatMap_cons, List.length_append, String.length_utf8EncodeChar]
  rw [counts, ← Text.bytes_eq, Text.bytes_length]

/-- As many bytes as some characters have are these characters. -/
theorem before_append (cs rest : List Char) : before (cs ++ rest) (byteCount cs) = cs := by
  induction cs with
  | nil =>
    cases rest with
    | nil => rfl
    | cons c rest =>
      have := c.utf8Size_pos
      rw [List.nil_append, byteCount, before, if_neg (by omega)]
  | cons c cs ih =>
    rw [List.cons_append, byteCount, before, if_pos (by omega), Nat.add_sub_cancel_left, ih]

/-! ### The last word -/

/-- The longest end of a text without white space, commas and delimiters. -/
structure IsLastWord (text word : List Char) : Prop where
  suffix : word <:+ text
  parts : ∀ c ∈ word, isWordPart c = true
  longest : ∀ other, other <:+ text → (∀ c ∈ other, isWordPart c = true) → other <:+ word

theorem isLastWord_lastWord (text : List Char) : IsLastWord text (lastWord text) where
  suffix := by
    rw [← List.reverse_prefix, lastWord, List.reverse_reverse]
    exact List.takeWhile_prefix _
  parts := by
    intro c member
    exact List.all_eq_true.mp List.all_takeWhile c (List.mem_reverse.mp member)
  longest := by
    rintro other ⟨earlier, rfl⟩ parts
    have reversed : ∀ c ∈ other.reverse, isWordPart c = true :=
      fun c member => parts c (List.mem_reverse.mp member)
    rw [lastWord, List.reverse_append, List.takeWhile_append_of_pos reversed, List.reverse_append,
      List.reverse_reverse]
    exact List.suffix_append _ _

/-- There is only one last word. -/
theorem IsLastWord.eq_lastWord {text word : List Char} (last : IsLastWord text word) :
    word = lastWord text := by
  have other := isLastWord_lastWord text
  have longer := other.longest word last.suffix last.parts
  have shorter := last.longest (lastWord text) other.suffix other.parts
  exact longer.eq_of_length (Nat.le_antisymm longer.length_le shorter.length_le)

/-! ### Known words -/

/-- A word means something in a session: it names a special form, an operator, a procedure of the
library or a macro. -/
def IsKnown (session : Session) (word : String) : Prop :=
  (∃ head : SpecialForm, head.name = word) ∨
    (∃ operator : Operator, Operator.ofName? word = some operator) ∨
    (∃ builtin : Builtin, builtin.bindingName = word) ∨ ∃ m ∈ session.registry, m.name = word

theorem mem_operatorNames_iff (word : String) :
    word ∈ Operator.names ↔ ∃ operator, Operator.ofName? word = some operator := by
  rw [← Option.isSome_iff_exists]
  simp [Operator.names, Operator.ofName?, BinaryOperator.ofName?, UnaryOperator.ofName?,
    ArithmeticOperator.ofName?]

theorem mem_knownWords_iff (session : Session) (word : String) :
    word ∈ knownWords session ↔ IsKnown session word := by
  have special : word ∈ SpecialForm.all.map (·.name) ↔ ∃ head : SpecialForm, head.name = word := by
    have all : ∀ head : SpecialForm, head ∈ SpecialForm.all := by
      intro head
      cases head <;> decide
    simp [all]
  have library : word ∈ Builtin.all.map (·.bindingName) ↔
      ∃ builtin : Builtin, builtin.bindingName = word := by
    have all : ∀ builtin : Builtin, builtin ∈ Builtin.all := by
      intro builtin
      cases builtin <;> decide
    simp [all]
  simp only [knownWords, List.mem_append, special, library, mem_operatorNames_iff, List.mem_map,
    IsKnown, or_assoc]

/-- No element occurs twice after its duplicates are gone. -/
theorem nodup_eraseDups : ∀ words : List String, words.eraseDups.Nodup
  | [] => .nil
  | word :: rest => by
    rw [List.eraseDups_cons, List.nodup_cons]
    refine ⟨?_, nodup_eraseDups _⟩
    simp
termination_by words => words.length
decreasing_by
  exact Nat.lt_succ_of_le (List.length_filter_le _ _)

theorem mem_matchingWords_iff {session : Session} {cs : List Char} {word : String} :
    word ∈ matchingWords session cs ↔ IsKnown session word ∧ cs <+: word.toList := by
  rw [matchingWords, List.mem_mergeSort, List.mem_eraseDups, List.mem_filter, mem_knownWords_iff,
    List.isPrefixOf_iff_prefix]

/-- The words stand in the order of their bytes, each once. -/
theorem matchingWords_sorted (session : Session) (cs : List Char) :
    (matchingWords session cs).Pairwise fun a b => Text.bytes a < Text.bytes b := by
  have ordered : (matchingWords session cs).Pairwise fun a b => a ≤ b := by
    refine (List.pairwise_mergeSort ?_ ?_ _).imp of_decide_eq_true
    · intro a b c first second
      exact decide_eq_true (String.le_trans (of_decide_eq_true first) (of_decide_eq_true second))
    · intro a b
      simpa using String.le_total a b
  have distinct : (matchingWords session cs).Nodup :=
    (List.mergeSort_perm _ _).nodup_iff.mpr (nodup_eraseDups _)
  refine (ordered.and distinct).imp ?_
  rintro a b ⟨before, different⟩
  refine Text.bytes_lt (String.not_le.mp fun after => ?_)
  exact different (String.le_antisymm before after)

/-! ### Commands -/

/-- A text without white space that starts with a colon and is the start of a command. -/
structure StartsCommand (text : List Char) : Prop where
  colon : text.head? = some ':'
  together : ∀ c ∈ text, Text.isBlank c = false
  listed : ∃ name ∈ commandNames, text <+: name.toList

theorem matchingCommands_eq {text : List Char} (starts : StartsCommand text) :
    matchingCommands text = commandNames.filter fun name => text.isPrefixOf name.toList := by
  have noBlank : text.any Text.isBlank = false :=
    List.any_eq_false.mpr fun c member => by simp [starts.together c member]
  simp [matchingCommands, starts.colon, noBlank]

theorem matchingCommands_ne_nil {text : List Char} (starts : StartsCommand text) :
    matchingCommands text ≠ [] := by
  obtain ⟨name, member, continues⟩ := starts.listed
  rw [matchingCommands_eq starts]
  exact List.ne_nil_of_mem (List.mem_filter.mpr ⟨member, List.isPrefixOf_iff_prefix.mpr continues⟩)

theorem matchingCommands_eq_nil {text : List Char} (code : ¬ StartsCommand text) :
    matchingCommands text = [] := by
  rw [List.eq_nil_iff_forall_not_mem]
  intro name member
  rw [matchingCommands] at member
  split at member
  · rename_i command
    simp only [Bool.and_eq_true, beq_iff_eq, Bool.not_eq_true', List.any_eq_false] at command
    obtain ⟨listed, continues⟩ := List.mem_filter.mp member
    refine code ⟨command.1, ?_, name, listed, List.isPrefixOf_iff_prefix.mp continues⟩
    intro c part
    simpa using command.2 c part
  · cases member

/-! ### Completions -/

section Completions

variable (session : Session) {text : String} (rest : String)

theorem complete_command (starts : StartsCommand text.toList) :
    complete session (text ++ rest) text.utf8ByteSize =
      ⟨0, commandNames.filter fun name => text.toList.isPrefixOf name.toList⟩ := by
  rw [complete, String.toList_append, ← byteCount_toList, before_append,
    ← matchingCommands_eq starts]
  cases matching : matchingCommands text.toList with
  | nil => exact absurd matching (matchingCommands_ne_nil starts)
  | cons name others => rfl

theorem complete_code (code : ¬ StartsCommand text.toList) :
    complete session (text ++ rest) text.utf8ByteSize =
      ⟨text.utf8ByteSize - byteCount (lastWord text.toList),
        if lastWord text.toList = [] then []
        else matchingWords session (lastWord text.toList)⟩ := by
  rw [complete, String.toList_append, ← byteCount_toList, before_append,
    matchingCommands_eq_nil code]
  cases lastWord text.toList with
  | nil => rfl
  | cons c word => rfl

/-- Cutting an end off a text leaves the bytes before it. -/
theorem exists_append_of_suffix {text : String} {cs : List Char} (suffix : cs <:+ text.toList) :
    ∃ earlier : String, text = earlier ++ String.ofList cs ∧
      text.utf8ByteSize - byteCount cs = earlier.utf8ByteSize := by
  obtain ⟨first, whole⟩ := suffix
  have parts : text = String.ofList first ++ String.ofList cs := by
    rw [← String.ofList_append, whole, String.ofList_toList]
  refine ⟨String.ofList first, parts, ?_⟩
  have size := byteCount_toList (String.ofList cs)
  rw [String.toList_ofList] at size
  rw [parts, String.utf8ByteSize_append, size, Nat.add_sub_cancel]

/-- A completion replaces the last word of a text: the candidates are the known words that start
with it, in the order of their bytes, and there are none if it is empty. -/
structure CompletesWord (text earlier word : String) (completion : Completion) : Prop where
  whole : text = earlier ++ word
  start : completion.start = earlier.utf8ByteSize
  last : IsLastWord text.toList word.toList
  sorted : completion.candidates.Pairwise fun a b => Text.bytes a < Text.bytes b
  exactly : ∀ candidate, candidate ∈ completion.candidates ↔
    word ≠ "" ∧ IsKnown session candidate ∧ word.toList <+: candidate.toList

theorem completesWord (code : ¬ StartsCommand text.toList) :
    ∃ earlier word, CompletesWord session text earlier word
      (complete session (text ++ rest) text.utf8ByteSize) := by
  have last := isLastWord_lastWord text.toList
  obtain ⟨earlier, whole, start⟩ := exists_append_of_suffix last.suffix
  refine ⟨earlier, String.ofList (lastWord text.toList), whole, ?_, ?_, ?_, ?_⟩
  · rw [complete_code session rest code, start]
  · rwa [String.toList_ofList]
  · rw [complete_code session rest code]
    by_cases empty : lastWord text.toList = []
    · rw [if_pos empty]
      exact .nil
    · rw [if_neg empty]
      exact matchingWords_sorted session _
  · intro candidate
    rw [complete_code session rest code, String.toList_ofList]
    by_cases empty : lastWord text.toList = []
    · simp [empty]
    · simp [empty, mem_matchingWords_iff]

end Completions

/-- With the cursor after any part `text` of a line, the part that is replaced is an end of `text`,
and every candidate starts with it. If `text` is the start of a command, it is all of `text`, and
the candidates are the commands that start so, in the order of their listing. Otherwise it is the
last word of `text`. -/
theorem complete_exact (session : Session) (text rest : String) :
    let completion := complete session (text ++ rest) text.utf8ByteSize
    (∃ earlier word : String, text = earlier ++ word ∧
      completion.start = earlier.utf8ByteSize ∧
      ∀ candidate ∈ completion.candidates, word.toList <+: candidate.toList) ∧
    (StartsCommand text.toList → completion.start = 0 ∧
      completion.candidates =
        commandNames.filter fun name => text.toList.isPrefixOf name.toList) ∧
    (¬ StartsCommand text.toList →
      ∃ earlier word, CompletesWord session text earlier word completion) := by
  intro completion
  refine ⟨?_, ?_, completesWord session rest⟩
  · by_cases starts : StartsCommand text.toList
    · have command := complete_command session rest starts
      refine ⟨"", text, by simp, by simp [completion, command], ?_⟩
      intro candidate member
      simp only [completion, command, List.mem_filter] at member
      exact List.isPrefixOf_iff_prefix.mp member.2
    · obtain ⟨earlier, word, completes⟩ := completesWord session rest starts
      refine ⟨earlier, word, completes.whole, completes.start, fun candidate member => ?_⟩
      exact ((completes.exactly candidate).mp member).2.2
  · intro starts
    simp [completion, complete_command session rest starts]

/-- There is one command that starts with `:m`, and the word before the cursor in `é(hash-` starts
after three bytes. -/
theorem complete_exact_hash :
    (complete (.new .ruby) (":m" ++ "a") 2).candidates = [":macros"] ∧
      (complete (.new .ruby) ("é(hash-" ++ " 1)") 8).start = 3 ∧
      "hash-map" ∈ (complete (.new .ruby) ("é(hash-" ++ " 1)") 8).candidates ∧
      "first" ∉ (complete (.new .ruby) ("é(hash-" ++ " 1)") 8).candidates := by
  have starts : StartsCommand ":m".toList := ⟨by decide, by decide, ":macros", by decide, by decide⟩
  have code : ¬ StartsCommand "é(hash-".toList := fun starts => absurd starts.colon (by decide)
  have commands := ((complete_exact (.new .ruby) ":m" "a").2.1 starts).2
  obtain ⟨earlier, word, completes⟩ := (complete_exact (.new .ruby) "é(hash-" " 1)").2.2 code
  have same : word.toList = "hash-".toList := completes.last.eq_lastWord
  obtain rfl : word = "hash-" := String.toList_inj.mp same
  have size := congrArg String.utf8ByteSize completes.whole
  rw [String.utf8ByteSize_append] at size
  refine ⟨commands, ?_, (completes.exactly "hash-map").mpr ?_, fun member => ?_⟩
  · have start : earlier.utf8ByteSize = 3 := Nat.add_right_cancel size.symm
    exact completes.start.trans start
  · exact ⟨by decide, .inr (.inr (.inl ⟨.hashMap, rfl⟩)), by decide⟩
  · exact absurd ((completes.exactly "first").mp member).2.2 (by decide)

end ScriptLisp.Repl
