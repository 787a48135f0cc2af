import ScriptLisp.Proofs.Text.Delimiters
import ScriptLisp.Target.Operand
import ScriptLisp.Text.Upper

/-!
Numbers and letters in generated text are plain: whole numbers and decimals of any size, and the
upper case of any character that is plain itself.
-/

namespace ScriptLisp.Delimiters

/-! ### Numbers -/

/-- Digits are plain. -/
theorem isPlain_of_isDigit {c : Char} (digit : c.isDigit = true) : isPlain c = true :=
  isPlain_of_class Char.isDigit (by decide) digit

/-- The digits of a natural number are plain. -/
theorem isPlain_of_mem_toDigits {n : Nat} {c : Char} (mem : c ∈ Nat.toDigits 10 n) :
    isPlain c = true :=
  isPlain_of_isDigit (Nat.isDigit_of_mem_toDigits (by decide) (by decide) mem)

theorem plain_toString (n : Nat) : Plain (toString n) := by
  intro c mem
  rw [Nat.toString_eq_repr, Nat.toList_repr] at mem
  exact isPlain_of_mem_toDigits mem

/-- A number inside a literal stays there, and ends no escape. -/
theorem toString_moves_literal (rules : Rules) (n : Nat) (pending : List Char) :
    Moves rules (.literal '\'' pending) (toString n) (.literal '\'' pending) := by
  unfold Moves
  rw [Nat.toString_eq_repr, Nat.toList_repr]
  suffices ∀ cs : List Char, (∀ c ∈ cs, c.isDigit = true) →
      scan rules (.literal '\'' pending) cs = some (.literal '\'' pending) from
    this _ fun _ => Nat.isDigit_of_mem_toDigits (by decide) (by decide)
  intro cs
  induction cs with
  | nil => intro _; rfl
  | cons c cs ih =>
    intro digits
    obtain ⟨digit, others⟩ := List.forall_mem_cons.mp digits
    have backslash : c ≠ '\\' := by rintro rfl; cases digit
    have quote : c ≠ '\'' := by rintro rfl; cases digit
    have step : (Place.literal '\'' pending).step c = some (.literal '\'' pending) := by
      rw [Place.step, if_neg backslash, if_neg quote]
    rw [scan_cons_of_step (admits_of_isPlain (isPlain_of_isDigit digit) rules _) step]
    exact ih others

/-- The characters of a whole number are plain. -/
theorem isPlain_of_mem_chars {n : Int} {c : Char} (mem : c ∈ Integer.chars n) :
    isPlain c = true := by
  unfold Integer.chars at mem
  split at mem
  · rcases List.mem_cons.mp mem with rfl | mem
    · rfl
    · exact isPlain_of_mem_toDigits mem
  · exact isPlain_of_mem_toDigits mem

theorem plain_integer (n : Int64) : Plain (Integer.text n) :=
  .ofList fun _ => isPlain_of_mem_chars

/-- The shortest digits of a magnitude are digits. -/
theorem isDigit_of_mem_shortest {b : Decimal.Binary} {c : Char}
    (mem : c ∈ (Decimal.shortest b).digits) : c.isDigit = true := by
  unfold Decimal.shortest at mem
  split at mem
  · cases mem
  · have written : c ∈ Nat.toDigits 10
        ((Decimal.Interval.ofBinary b).search (Decimal.Interval.ofBinary b).point 17 1).1 := by
      have dropped := List.mem_reverse.mp mem
      exact List.mem_reverse.mp ((List.dropWhile_sublist _).mem dropped)
    exact Nat.isDigit_of_mem_toDigits (by decide) (by decide) written

theorem isPlain_of_mem_shortest {b : Decimal.Binary} {c : Char}
    (mem : c ∈ (Decimal.shortest b).digits) : isPlain c = true :=
  isPlain_of_isDigit (isDigit_of_mem_shortest mem)

/-- A magnitude in positional notation is plain. -/
theorem isPlain_of_mem_positional {d : Decimal.Digits} {c : Char}
    (digits : ∀ c ∈ d.digits, isPlain c = true) (mem : c ∈ Decimal.positional d) :
    isPlain c = true := by
  simp only [Decimal.positional] at mem
  split at mem
  · simp only [List.mem_append, List.mem_cons, List.mem_replicate, List.cons_append] at mem
    rcases mem with rfl | rfl | ⟨_, rfl⟩ | mem
    · rfl
    · rfl
    · rfl
    · exact digits c mem
  · split at mem
    · simp only [List.mem_append, List.mem_cons, List.mem_replicate, List.not_mem_nil,
        or_false] at mem
      rcases mem with (mem | ⟨_, rfl⟩) | rfl | rfl
      · exact digits c mem
      · rfl
      · rfl
      · rfl
    · rcases List.mem_append.mp mem with mem | mem
      · exact digits c (List.mem_of_mem_take mem)
      · rcases List.mem_cons.mp mem with rfl | mem
        · rfl
        · exact digits c (List.mem_of_mem_drop mem)

/-- A magnitude with a power of ten is plain. -/
theorem isPlain_of_mem_scientific {d : Decimal.Digits} {c : Char}
    (digits : ∀ c ∈ d.digits, isPlain c = true)
    (mem : c ∈ Decimal.scientific Decimal.style d) : isPlain c = true := by
  simp only [Decimal.scientific, List.mem_append] at mem
  rcases mem with ((mem | mem) | mem) | mem
  · exact digits c (List.mem_of_mem_take mem)
  · split at mem
    · cases mem
    · rcases List.mem_cons.mp mem with rfl | mem
      · rfl
      · exact digits c (List.mem_of_mem_drop mem)
  · exact (show Plain Decimal.style.exponentMark by decide) c mem
  · exact isPlain_of_mem_chars mem

theorem isPlain_of_mem_magnitude {b : Decimal.Binary} {c : Char}
    (mem : c ∈ Decimal.magnitude Decimal.style b) : isPlain c = true := by
  simp only [Decimal.magnitude] at mem
  split at mem
  · exact (show ∀ c ∈ ['0', '.', '0'], isPlain c = true by decide) c mem
  · split at mem
    · exact isPlain_of_mem_positional (fun _ => isPlain_of_mem_shortest) mem
    · exact isPlain_of_mem_scientific (fun _ => isPlain_of_mem_shortest) mem

theorem plain_decimal (d : Float) : Plain (Decimal.text d) := by
  have sign : ∀ negative : Prop, [Decidable negative] → Plain (if negative then "-" else "") := by
    intro negative _
    split <;> decide
  simp only [Decimal.text]
  split
  · exact (sign _).append (.ofList fun _ => isPlain_of_mem_magnitude)
  · split
    · exact (sign _).append (by decide)
    · decide

/-! ### Numbers are never empty -/

theorem integerChars_ne_nil (n : Int) : Integer.chars n ≠ [] := by
  unfold Integer.chars
  split <;> simp

theorem integer_ne_empty (n : Int64) : Integer.text n ≠ "" := by
  simp [Integer.text, integerChars_ne_nil]

/-- A magnitude starts with a digit. -/
theorem magnitude_head (b : Decimal.Binary) :
    ∃ c rest, Decimal.magnitude Decimal.style b = c :: rest ∧ c.isDigit = true := by
  simp only [Decimal.magnitude]
  split
  · exact ⟨'0', ['.', '0'], rfl, rfl⟩
  · next filled =>
    have shortest : ∀ c ∈ (Decimal.shortest b).digits, c.isDigit = true :=
      fun _ => isDigit_of_mem_shortest
    cases written : (Decimal.shortest b).digits with
    | nil => simp [written] at filled
    | cons c rest =>
      have digit : c.isDigit = true := shortest c (written ▸ List.mem_cons_self)
      split
      · simp only [Decimal.positional, written]
        split
        · exact ⟨'0', _, rfl, rfl⟩
        · next point =>
          split
          · exact ⟨c, _, rfl, digit⟩
          · obtain ⟨n, positive⟩ : ∃ n, (Decimal.shortest b).point.toNat = n + 1 :=
              ⟨_, (Nat.succ_pred_eq_of_pos (by omega)).symm⟩
            rw [positive]
            exact ⟨c, _, rfl, digit⟩
      · simp only [Decimal.scientific, written]
        exact ⟨c, _, rfl, digit⟩

theorem magnitude_ne_nil (b : Decimal.Binary) : Decimal.magnitude Decimal.style b ≠ [] := by
  obtain ⟨c, rest, starts, -⟩ := magnitude_head b
  simp [starts]

theorem decimal_ne_empty (d : Float) : Decimal.text d ≠ "" := by
  simp only [Decimal.text]
  split
  · simp [magnitude_ne_nil]
  · split <;> simp [Decimal.style]

/-! ### Upper case -/

/-- A code point that is not the one of a mark gives a plain character. -/
theorem isPlain_ofNat {n : Nat} (unmarked : ∀ mark ∈ marks, mark.toNat ≠ n) :
    isPlain (Char.ofNat n) = true := by
  simp only [isPlain, Bool.not_eq_true', List.contains_iff_mem, Bool.eq_false_iff, ne_eq]
  intro marked
  by_cases valid : n.isValidChar
  · refine unmarked _ marked ?_
    rw [Char.ofNat, dif_pos valid]
    rfl
  · rw [Char.ofNat, dif_neg valid] at marked
    revert marked
    decide

/-- No run of upper-case characters holds a mark. -/
theorem upperRuns_unmarked : ∀ run ∈ Text.upperRuns, ∀ mark ∈ marks,
    (mark.toNat : Int) - run.2.2.2 < run.1 ∨ run.2.1 < (mark.toNat : Int) - run.2.2.2 := by
  decide +kernel

/-- No upper-case sequence holds a mark. -/
theorem upperSequences_unmarked : ∀ sequence ∈ Text.upperSequences, ∀ code ∈ sequence.2,
    ∀ mark ∈ marks, mark.toNat ≠ code := by
  decide +kernel

/-- The upper case of a plain character is plain. -/
theorem isPlain_of_mem_upper {c d : Char} (plain : isPlain c = true) (mem : d ∈ Text.upper c) :
    isPlain d = true := by
  unfold Text.upper at mem
  split at mem
  · next codes found =>
    obtain ⟨code, listed, rfl⟩ := List.mem_map.mp mem
    obtain ⟨before, after, table, _⟩ := List.lookup_eq_some_iff.mp found
    have entry : (c.toNat, codes) ∈ Text.upperSequences := by rw [table]; simp
    exact isPlain_ofNat (upperSequences_unmarked _ entry code listed)
  · simp only at mem
    split at mem
    · next first last step distance found =>
      rw [List.mem_singleton.mp mem]
      have listed := List.mem_of_find?_eq_some found
      have covered := List.find?_some found
      simp only [Bool.and_eq_true, decide_eq_true_eq, beq_iff_eq] at covered
      refine isPlain_ofNat fun mark marked same => ?_
      have positive : 0 < mark.toNat := (show ∀ mark ∈ marks, 0 < mark.toNat by decide) _ marked
      have apart := upperRuns_unmarked _ listed _ marked
      simp only at apart
      omega
    · rw [List.mem_singleton.mp mem]
      exact plain

/-- Line breaks have no other upper case. -/
theorem upper_marks_inert : ∀ mark ∈ marks, isInert mark = true →
    ∀ d ∈ Text.upper mark, isInert d = true := by
  decide +kernel

theorem isInert_of_mem_upper {c d : Char} (inert : isInert c = true) (mem : d ∈ Text.upper c) :
    isInert d = true := by
  by_cases marked : c ∈ marks
  · exact upper_marks_inert c marked inert d mem
  · have plain : isPlain c = true := by simp [isPlain, marked]
    exact isInert_of_isPlain (isPlain_of_mem_upper plain mem)

end ScriptLisp.Delimiters
