/-!
The bytes of texts. Texts are ordered by their characters; this is the order of their bytes, since
no character's bytes start another's and later characters have greater ones.

* `Text.bytes`, `bytes_length`: the bytes of a text.
* `encode_lt`: of two characters the later one has the greater bytes, whatever follows them.
* `bytes_lt`: of two texts the later one does.
-/

namespace ScriptLisp.Text

def bytes (text : String) : List UInt8 :=
  text.toByteArray.data.toList

/-- The bytes of a text are the encodings of its characters, one after the other. -/
theorem bytes_eq (text : String) : bytes text = text.toList.flatMap String.utf8EncodeChar := by
  rw [bytes, ← String.utf8Encode_toList, List.utf8Encode, List.toList_data_toByteArray]

theorem bytes_length (text : String) : (bytes text).length = text.utf8ByteSize :=
  text.size_toByteArray

/-! ### Characters -/

/-- Bytes compare as the numbers that they are made of, below 256. -/
theorem byte_lt_iff {m n : Nat} (small : m < 256) (bounded : n < 256) :
    UInt8.ofNat m < UInt8.ofNat n ↔ m < n := by
  rw [UInt8.lt_iff_toNat_lt, UInt8.toNat_ofNat_of_lt' small, UInt8.toNat_ofNat_of_lt' bounded]

theorem byte_eq_iff {m n : Nat} (small : m < 256) (bounded : n < 256) :
    UInt8.ofNat m = UInt8.ofNat n ↔ m = n := by
  rw [← UInt8.toNat_inj, UInt8.toNat_ofNat_of_lt' small, UInt8.toNat_ofNat_of_lt' bounded]

/-- A longer encoding starts with a greater byte, and one as long has a greater byte at the first
place where the two differ. -/
theorem encode_lt {c d : Char} (below : c < d) (more others : List UInt8) :
    String.utf8EncodeChar c ++ more < String.utf8EncodeChar d ++ others := by
  have values : c.val.toNat < d.val.toNat := below
  have valid : d.val.toNat < 0x110000 := by
    rcases d.valid with low | high
    · exact Nat.lt_of_lt_of_le low (by decide)
    · exact high.2
  unfold String.utf8EncodeChar
  generalize c.val.toNat = m at values
  generalize d.val.toNat = n at values valid
  -- The bytes are digits to the base 64, so the first ones that differ decide.
  have places : ∀ k : Nat, k / 4096 = k / 64 / 64 ∧ k / 262144 = k / 64 / 64 / 64 := by
    intro k
    omega
  have differ : ∀ j k : Nat, j < k → j / 64 < k / 64 ∨ j / 64 = k / 64 ∧ j % 64 < k % 64 := by
    intro j k less
    omega
  have fourth := differ m n values
  have third := differ (m / 64) (n / 64)
  have second := differ (m / 64 / 64) (n / 64 / 64)
  dsimp only
  -- One case for each pair of lengths.
  repeat' split
  all_goals
    simp (disch := omega) only [places, List.cons_append, List.nil_append,
      List.cons_lt_cons_iff, byte_lt_iff, byte_eq_iff]
    omega

/-! ### Texts -/

/-- A common beginning does not matter for the order. -/
theorem append_lt_append {common xs ys : List UInt8} (below : xs < ys) :
    common ++ xs < common ++ ys := by
  induction common with
  | nil => exact below
  | cons byte rest ih => exact List.cons_lt_cons_iff.mpr (.inr ⟨rfl, ih⟩)

/-- Along two texts: equal characters are a common beginning, and the first different one decides.
-/
theorem encodings_lt : ∀ {cs ds : List Char}, cs < ds →
    cs.flatMap String.utf8EncodeChar < ds.flatMap String.utf8EncodeChar
  | [], d :: ds, _ => by
    obtain ⟨byte, rest, starts⟩ := List.exists_cons_of_ne_nil (@String.utf8EncodeChar_ne_nil d)
    rw [List.flatMap_nil, List.flatMap_cons, starts]
    exact List.nil_lt_cons _ _
  | c :: cs, d :: ds, below => by
    rw [List.flatMap_cons, List.flatMap_cons]
    rcases List.cons_lt_cons_iff.mp below with first | ⟨rfl, rest⟩
    · exact encode_lt first _ _
    · exact append_lt_append (encodings_lt rest)

/-- The order of texts by characters is their order by bytes. -/
theorem bytes_lt {a b : String} (below : a < b) : bytes a < bytes b := by
  rw [bytes_eq, bytes_eq]
  exact encodings_lt (String.lt_iff.mp below)

end ScriptLisp.Text
