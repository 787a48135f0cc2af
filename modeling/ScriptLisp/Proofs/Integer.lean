import ScriptLisp.Integer

/-!
Words and whole numbers. Every word stands for a whole number that fits, and every whole number that
fits has a word; so a result that is computed on whole numbers is exact or refused.

* `exists_of_fits`, `ofInt?_of_not_fits`: which whole numbers have a word.
* `toInt_of_ofInt?`, `ofInt?_toInt`: the word of a whole number stands for it.
-/

namespace ScriptLisp.Integer

/-- A machine integer read as an integer is in the range of machine integers. -/
theorem fits_toInt (w : Int64) : Fits w.toInt := by
  have least := w.le_toInt
  have most := w.toInt_lt
  constructor <;> omega

theorem ofInt?_toInt (w : Int64) : ofInt? w.toInt = some w := by
  rw [ofInt?, if_pos (fits_toInt w), Int64.ofInt_toInt]

/-- Conversion to a machine integer never changes the number. -/
theorem toInt_of_ofInt? {n : Int} {w : Int64} (made : ofInt? n = some w) : w.toInt = n := by
  unfold ofInt? at made
  split at made
  · rename_i fits
    cases made
    obtain ⟨least, most⟩ := fits
    exact Int64.toInt_ofInt_of_le (by omega) (by omega)
  · cases made

/-- The range is exact: every integer in it has its machine integer. -/
theorem exists_of_fits {n : Int} (fits : Fits n) : ∃ w, ofInt? n = some w ∧ w.toInt = n := by
  have made : ofInt? n = some (Int64.ofInt n) := if_pos fits
  exact ⟨_, made, toInt_of_ofInt? made⟩

theorem ofInt?_of_not_fits {n : Int} (large : ¬ Fits n) : ofInt? n = none :=
  if_neg large

end ScriptLisp.Integer
