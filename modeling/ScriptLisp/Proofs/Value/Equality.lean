import Mathlib.Data.List.Forall2
import Mathlib.Tactic.Ring
import ScriptLisp.Proofs.Value.Within

/-!
Laws of equality. Two sets are equal if they have as many elements and each element of one is in the
other; that this is symmetric rests on elements being counted only once, and on equality of the
elements. So the laws hold of values that are sound wherever equality looks: nothing occurs twice in
a set or as a key of a map, and no ratio divides by zero. Of decimals nothing is asked, as `NaN` is
equal to nothing, and of closures neither, as they are told apart by their identity.

* `Decimal.beq_symm`, `Decimal.beq_trans`: equality of decimals.
* `Alike`: what it takes for two values to be equal, in terms of their parts.
* `exists_partner`: sequences of the same length without a shared partner.
* `equal_symm`, `equal_trans`: the laws.
* `unrepeated_adjoin`, `unrepeated_insertEntry`: adding to sets and maps repeats nothing.
-/

namespace ScriptLisp

open Float.Model (UnpackedFloat)
open Float.Model.UnpackedFloat (Sign)

/-! ### Decimals -/

namespace Decimal

/-- What a decimal is compared by: the two zeros are one number, and `NaN` is none. -/
def comparand? : UnpackedFloat → Option UnpackedFloat
  | .notANumber => none
  | .zero _ => some (.zero .positive)
  | number => some number

/-- Finite decimals are equal exactly if their parts are. -/
theorem compare_finite {sign : Sign} {m n : Nat} {e f : Int} {hm : 0 < m} {hn : 0 < n} :
    UnpackedFloat.compare (.finite sign m e hm) (.finite sign n f hn) = some .eq ↔
      e = f ∧ m = n := by
  have ordered : (compare e f).then (compare m n) = .eq ↔ e = f ∧ m = n := by
    simp [Ordering.then_eq_eq]
  cases sign with
  | positive => exact Option.some_inj.trans ordered
  | negative => exact Option.some_inj.trans (Ordering.swap_eq_eq.trans ordered)

/-- Unpacked decimals are equal if they are compared by the same number. -/
theorem compare_eq_iff {x y : UnpackedFloat} :
    x.compare y = some .eq ↔ comparand? x ≠ none ∧ comparand? x = comparand? y := by
  constructor
  · intro same
    cases x with
    | notANumber => cases same
    | zero s =>
      cases y with
      | zero => exact ⟨Option.some_ne_none _, rfl⟩
      | notANumber => cases same
      | infinity t | finite t => cases t <;> cases same
    | infinity s =>
      cases y with
      | infinity t =>
        cases s <;> cases t
        case positive.positive | negative.negative => exact ⟨Option.some_ne_none _, rfl⟩
        all_goals cases same
      | _ => cases s <;> cases same
    | finite s m e =>
      cases y with
      | finite t n f =>
        by_cases signs : s = t
        · subst signs
          obtain ⟨rfl, rfl⟩ := compare_finite.mp same
          exact ⟨Option.some_ne_none _, rfl⟩
        · cases s <;> cases t
          case positive.positive | negative.negative => exact absurd rfl signs
          all_goals cases same
      | notANumber => cases same
      | infinity t => cases t <;> cases same
      | zero => cases s <;> cases same
  · rintro ⟨number, both⟩
    cases x with
    | notANumber => exact absurd rfl number
    | zero s =>
      cases y with
      | zero => rfl
      | _ => cases both
    | infinity s =>
      cases y with
      | infinity t =>
        cases both
        cases s <;> rfl
      | _ => cases both
    | finite s m e =>
      cases y with
      | finite t n f =>
        cases both
        exact compare_finite.mpr ⟨rfl, rfl⟩
      | _ => cases both

/-- Decimals are equal if they are compared by the same number. -/
theorem beq_iff {a b : Float} :
    (a == b) = true ↔ comparand? a.toModel.unpack ≠ none ∧
      comparand? a.toModel.unpack = comparand? b.toModel.unpack := by
  rw [← compare_eq_iff]
  exact beq_iff_eq (a := a.toModel.unpack.compare b.toModel.unpack)

theorem beq_symm {a b : Float} (same : (a == b) = true) : (b == a) = true := by
  obtain ⟨number, both⟩ := beq_iff.mp same
  exact beq_iff.mpr ⟨both ▸ number, both.symm⟩

/-- Both comparisons are by the number of the decimal in the middle. -/
theorem beq_trans {a b c : Float} (first : (a == b) = true) (second : (b == c) = true) :
    (a == c) = true := by
  obtain ⟨number, left⟩ := beq_iff.mp first
  exact beq_iff.mpr ⟨number, left.trans (beq_iff.mp second).2⟩

end Decimal

namespace Value

/-! ### Equality in terms of parts -/

/-- Elements are compared in order. -/
theorem equalElements_iff {as bs : List Value} :
    equalElements as bs = true ↔ List.Forall₂ (fun a b => equal a b = true) as bs := by
  induction as generalizing bs with
  | nil => cases bs <;> simp [equalElements]
  | cons a as ih => cases bs <;> simp [equalElements, ih]

/-- Each element is looked for. -/
theorem allIn_iff {as bs : List Value} :
    allIn as bs = true ↔ ∀ a ∈ as, ∃ b ∈ bs, equal a b = true := by
  induction as with
  | nil => simp [allIn]
  | cons a as ih => simp [allIn, ih]

/-- Each key is looked for together with its value. -/
theorem allEntriesIn_iff {as bs : List (Value × Value)} :
    allEntriesIn as bs = true ↔
      ∀ a ∈ as, ∃ b ∈ bs, equal a.1 b.1 = true ∧ equal a.2 b.2 = true := by
  induction as with
  | nil => simp [allEntriesIn]
  | cons a as ih =>
    obtain ⟨key, item⟩ := a
    simp only [allEntriesIn, Bool.and_eq_true, List.any_eq_true, ih, List.forall_mem_cons]

/-- The elements of a value that is compared place by place. -/
def sequence? : Value → Option (List Value)
  | .list elements | .vector elements => some elements
  | _ => none

/-- The parts of a list or a vector are its elements. -/
theorem parts_of_sequence? {value : Value} {elements : List Value}
    (sequence : value.sequence? = some elements) : value.parts = elements := by
  cases value <;> cases sequence <;> rfl

theorem visible_of_sequence? {value : Value} {elements : List Value}
    (sequence : value.sequence? = some elements) : value.visible = elements := by
  cases value <;> cases sequence <;> rfl

/-- What it takes for two values to be equal, in terms of their parts. -/
inductive Alike : Value → Value → Prop
  | same {value : Value} (reflexive : equal value value = true) : Alike value value
  | rational {a b c d : Int64} (cross : a.toInt * d.toInt = c.toInt * b.toInt) :
      Alike (.rational a b) (.rational c d)
  | decimal {a b : Float} (equal : (a == b) = true) : Alike (.decimal a) (.decimal b)
  | sequence {x y : Value} {as bs : List Value} (left : x.sequence? = some as)
      (right : y.sequence? = some bs) (each : List.Forall₂ (fun a b => equal a b = true) as bs) :
      Alike x y
  | set {as bs : List Value} (length : as.length = bs.length)
      (each : ∀ a ∈ as, ∃ b ∈ bs, equal a b = true) : Alike (.set as) (.set bs)
  | map {as bs : List (Value × Value)} (length : as.length = bs.length)
      (each : ∀ a ∈ as, ∃ b ∈ bs, equal a.1 b.1 = true ∧ equal a.2 b.2 = true) :
      Alike (.map as) (.map bs)
  | closure {identity : Nat} {f g : Lambda} {environment other : Environment} :
      Alike (.closure identity f environment) (.closure identity g other)

/-- By the kinds of the two values. -/
theorem alike_of_equal {x y : Value} (same : equal x y = true) : Alike x y := by
  rw [equal.eq_def] at same
  split at same
  case h_1 => exact .same (by simp [equal])
  case h_4 => exact .rational (beq_iff_eq.mp same)
  case h_5 => exact .decimal same
  case h_13 =>
    rw [Bool.and_eq_true, beq_iff_eq, allIn_iff] at same
    exact .set same.1 same.2
  case h_14 =>
    rw [Bool.and_eq_true, beq_iff_eq, allEntriesIn_iff] at same
    exact .map same.1 same.2
  case h_16 =>
    cases beq_iff_eq.mp same
    exact .closure
  case h_17 => cases same
  -- Lists and vectors, in any of four combinations.
  case h_9 | h_10 | h_11 | h_12 => exact .sequence rfl rfl (equalElements_iff.mp same)
  -- Atoms that are equal only to themselves.
  all_goals
    cases beq_iff_eq.mp same
    exact .same (by simp [equal])

/-- By the way in which they are alike. -/
theorem equal_of_alike {x y : Value} (alike : Alike x y) : equal x y = true := by
  cases alike with
  | same reflexive => exact reflexive
  | rational cross => simpa [equal] using cross
  | decimal same => simpa [equal] using same
  | sequence left right each =>
    have elements := equalElements_iff.mpr each
    cases x <;> cases left <;> cases y <;> cases right <;> simpa [equal] using elements
  | set length each => simp [equal, length, allIn_iff.mpr each]
  | map length each => simp [equal, length, allEntriesIn_iff.mpr each]
  | closure => simp [equal]

/-- Equality is being alike: this is how the laws take values apart. -/
theorem equal_iff_alike {x y : Value} : equal x y = true ↔ Alike x y :=
  ⟨alike_of_equal, equal_of_alike⟩

/-! ### Sound values -/

/-- No value of a sequence is equal to a later one. -/
def Unrepeated (values : List Value) : Prop :=
  values.Pairwise fun a b => equal a b = false

/-- A ratio does not divide by zero, and nothing occurs twice in a set or as a key of a map. -/
def SoundHere : Value → Prop
  | .rational _ denominator => denominator ≠ 0
  | .set elements => Unrepeated elements
  | .map entries => Unrepeated (entries.map (·.1))
  | _ => True

/-- A value is sound at every depth. -/
abbrev Sound (value : Value) : Prop :=
  Throughout SoundHere value

/-- A value is sound wherever equality looks. -/
abbrev Regular (value : Value) : Prop :=
  Visibly SoundHere value

/-! ### Transitivity -/

/-- Equality is transitive at a value, through regular values. -/
def TransitiveAt (x : Value) : Prop :=
  ∀ y z, Regular y → equal x y = true → equal y z = true → equal x z = true

/-- Cross products can be cancelled where the denominator in the middle is not zero. -/
theorem rational_trans {a b c d e f : Int64} (nonzero : d ≠ 0)
    (first : a.toInt * d.toInt = c.toInt * b.toInt)
    (second : c.toInt * f.toInt = e.toInt * d.toInt) :
    a.toInt * f.toInt = e.toInt * b.toInt := by
  have divides : d.toInt ≠ 0 := by
    intro zero
    exact nonzero (Int64.toInt_inj.mp zero)
  apply Int.eq_of_mul_eq_mul_right divides
  calc a.toInt * f.toInt * d.toInt = a.toInt * d.toInt * f.toInt := by ring
    _ = c.toInt * f.toInt * b.toInt := by rw [first]; ring
    _ = e.toInt * b.toInt * d.toInt := by rw [second]; ring

theorem forall₂_trans {as bs cs : List Value} (each : ∀ a ∈ as, TransitiveAt a)
    (sound : ∀ b ∈ bs, Regular b) (first : List.Forall₂ (fun a b => equal a b = true) as bs)
    (second : List.Forall₂ (fun a b => equal a b = true) bs cs) :
    List.Forall₂ (fun a b => equal a b = true) as cs := by
  induction first generalizing cs with
  | nil => exact second
  | cons same _ ih =>
    obtain ⟨here, others⟩ := List.forall_mem_cons.mp each
    obtain ⟨soundFirst, soundOthers⟩ := List.forall_mem_cons.mp sound
    cases second with
    | cons again rest => exact .cons (here _ _ soundFirst same again) (ih others soundOthers rest)

/-- The step of the induction on the parts of the first value. -/
theorem transitiveAt_of_parts {x : Value} (below : ∀ part ∈ x.parts, TransitiveAt part) :
    TransitiveAt x := by
  intro y z sound first second
  have soundParts : ∀ part ∈ y.visible, Regular part := fun part member => sound.part member
  rw [equal_iff_alike] at first second ⊢
  cases first with
  | same => exact second
  | rational cross =>
    cases second with
    | same => exact .rational cross
    | rational again => exact .rational (rational_trans sound.here cross again)
    | sequence left => cases left
  | decimal same =>
    cases second with
    | same => exact .decimal same
    | decimal again => exact .decimal (Decimal.beq_trans same again)
    | sequence left => cases left
  | sequence left right each =>
    cases second with
    | same => exact .sequence left right each
    | sequence again last rest =>
      cases right.symm.trans again
      rw [parts_of_sequence? left] at below
      rw [visible_of_sequence? right] at soundParts
      exact .sequence left last (forall₂_trans below soundParts each rest)
    | _ => cases right
  | set length each =>
    cases second with
    | same => exact .set length each
    | set lengthToo rest =>
      refine .set (length.trans lengthToo) fun a memberA => ?_
      -- An element and its partner in the last set are both equal to one between them.
      obtain ⟨b, memberB, same⟩ := each a memberA
      obtain ⟨c, memberC, again⟩ := rest b memberB
      exact ⟨c, memberC, below a memberA b c (soundParts b memberB) same again⟩
    | sequence left => cases left
  | map length each =>
    cases second with
    | same => exact .map length each
    | map lengthToo rest =>
      refine .map (length.trans lengthToo) fun a memberA => ?_
      obtain ⟨b, memberB, sameKey, sameItem⟩ := each a memberA
      obtain ⟨c, memberC, againKey, againItem⟩ := rest b memberB
      obtain ⟨keyA, itemA⟩ := mem_parts_map memberA
      obtain ⟨keyB, itemB⟩ := mem_parts_map memberB
      exact ⟨c, memberC, below _ keyA _ _ (soundParts _ keyB) sameKey againKey,
        below _ itemA _ _ (soundParts _ itemB) sameItem againItem⟩
    | sequence left => cases left
  | closure =>
    cases second with
    | same | closure => exact .closure
    | sequence left => cases left

/-- Equality is transitive through regular values. -/
theorem equal_trans {x y z : Value} (sound : Regular y) (first : equal x y = true)
    (second : equal y z = true) : equal x z = true :=
  induction_on_parts (fun _ => transitiveAt_of_parts) x y z sound first second

/-! ### Symmetry -/

/-- Equality is symmetric at a value, if it is regular, with regular values. -/
def SymmetricAt (x : Value) : Prop :=
  Regular x → ∀ y, Regular y → equal x y = true → equal y x = true

/-- Where each member of one sequence has a partner in another of the same length, and no two of
them share one, each member of the other sequence is a partner. -/
theorem exists_partner {α β : Type} {r : α → β → Prop} {as : List α} {bs : List β}
    (length : as.length = bs.length) (each : ∀ a ∈ as, ∃ b ∈ bs, r a b)
    (apart : as.Pairwise fun a c => ∀ b ∈ bs, r a b → ¬ r c b) :
    ∀ b ∈ bs, ∃ a ∈ as, r a b := by
  induction as generalizing bs with
  | nil =>
    intro b member
    rw [List.length_eq_zero_iff.mp length.symm] at member
    cases member
  | cons a as ih =>
    obtain ⟨⟨partner, member, related⟩, others⟩ := List.forall_mem_cons.mp each
    obtain ⟨before, after, rfl⟩ := List.append_of_mem member
    obtain ⟨apartFirst, apartRest⟩ := List.pairwise_cons.mp apart
    -- Without the first member and its partner the sequences are as before.
    have left : ∀ b ∈ before ++ after, ∃ c ∈ as, r c b := by
      refine ih ?_ ?_ ?_
      · simp at length ⊢
        omega
      · intro c memberC
        obtain ⟨b, found, relatedC⟩ := others c memberC
        have different : b ≠ partner := by
          rintro rfl
          exact apartFirst c memberC b found related relatedC
        refine ⟨b, ?_, relatedC⟩
        simpa [different] using found
      · refine apartRest.imp fun share b found => share b ?_
        rw [List.mem_append] at found
        simpa using found.imp_right Or.inr
    intro b found
    by_cases same : b = partner
    · exact ⟨a, List.mem_cons_self, same ▸ related⟩
    · obtain ⟨c, memberC, relatedC⟩ := left b (by simpa [same] using found)
      exact ⟨c, List.mem_cons_of_mem a memberC, relatedC⟩

/-- Values equal to the same value are equal to each other. -/
theorem equal_of_common {a b c : Value} (symmetric : SymmetricAt c) (soundC : Regular c)
    (soundB : Regular b) (left : equal a b = true) (right : equal c b = true) : equal a c = true :=
  equal_trans soundB left (symmetric soundC b soundB right)

theorem forall₂_symm {as bs : List Value} (each : ∀ a ∈ as, SymmetricAt a)
    (soundLeft : ∀ a ∈ as, Regular a) (soundRight : ∀ b ∈ bs, Regular b)
    (same : List.Forall₂ (fun a b => equal a b = true) as bs) :
    List.Forall₂ (fun a b => equal a b = true) bs as := by
  induction same with
  | nil => exact .nil
  | cons first _ ih =>
    obtain ⟨here, others⟩ := List.forall_mem_cons.mp each
    obtain ⟨soundA, soundAs⟩ := List.forall_mem_cons.mp soundLeft
    obtain ⟨soundB, soundBs⟩ := List.forall_mem_cons.mp soundRight
    exact .cons (here soundA _ soundB first) (ih others soundAs soundBs)

/-- The step of the induction; for sets and maps an injection between equal sizes has all in its
range. -/
theorem symmetricAt_of_parts {x : Value} (below : ∀ part ∈ x.parts, SymmetricAt part) :
    SymmetricAt x := by
  intro soundX y soundY same
  rw [equal_iff_alike] at same ⊢
  have soundLeft : ∀ part ∈ x.visible, Regular part := fun part member => soundX.part member
  have soundRight : ∀ part ∈ y.visible, Regular part := fun part member => soundY.part member
  cases same with
  | same reflexive => exact .same reflexive
  | rational cross => exact .rational cross.symm
  | decimal same => exact .decimal (Decimal.beq_symm same)
  | sequence left right each =>
    rw [parts_of_sequence? left] at below
    rw [visible_of_sequence? left] at soundLeft
    rw [visible_of_sequence? right] at soundRight
    exact .sequence right left (forall₂_symm below soundLeft soundRight each)
  | @set as bs length each =>
    have unrepeated : Unrepeated as := soundX.here
    -- No two elements share a partner, since they would be equal to each other; so by their number
    -- all elements of the other set are partners.
    have partners : ∀ b ∈ bs, ∃ a ∈ as, equal a b = true := by
      refine exists_partner length each (unrepeated.imp_of_mem ?_)
      intro a c _ memberC unequal b memberB sameA sameC
      have again := equal_of_common (below c memberC) (soundLeft c memberC)
        (soundRight b memberB) sameA sameC
      rw [unequal] at again
      cases again
    refine .set length.symm fun b memberB => ?_
    obtain ⟨a, memberA, same⟩ := partners b memberB
    exact ⟨a, memberA, below a memberA (soundLeft a memberA) b (soundRight b memberB) same⟩
  | @map as bs length each =>
    have unrepeated : Unrepeated (as.map (·.1)) := soundX.here
    have partners : ∀ b ∈ bs, ∃ a ∈ as, equal a.1 b.1 = true ∧ equal a.2 b.2 = true := by
      refine exists_partner length each ((List.pairwise_map.mp unrepeated).imp_of_mem ?_)
      rintro a c _ memberC unequal b memberB ⟨sameA, -⟩ ⟨sameC, -⟩
      have keyC := (mem_parts_map memberC).1
      have again := equal_of_common (below _ keyC) (soundLeft _ keyC)
        (soundRight _ (mem_parts_map memberB).1) sameA sameC
      rw [unequal] at again
      cases again
    refine .map length.symm fun b memberB => ?_
    obtain ⟨a, memberA, sameKey, sameItem⟩ := partners b memberB
    obtain ⟨keyA, itemA⟩ := mem_parts_map memberA
    obtain ⟨keyB, itemB⟩ := mem_parts_map memberB
    exact ⟨a, memberA, below _ keyA (soundLeft _ keyA) _ (soundRight _ keyB) sameKey,
      below _ itemA (soundLeft _ itemA) _ (soundRight _ itemB) sameItem⟩
  | closure => exact .closure

/-- Equality is symmetric on regular values. -/
theorem equal_symm {x y : Value} (soundX : Regular x) (soundY : Regular y)
    (same : equal x y = true) : equal y x = true :=
  induction_on_parts (fun _ => symmetricAt_of_parts) x soundX y soundY same

theorem unequal_symm {x y : Value} (soundX : Regular x) (soundY : Regular y)
    (unequal : equal x y = false) : equal y x = false := by
  by_contra same
  rw [Bool.not_eq_false] at same
  rw [equal_symm soundY soundX same] at unequal
  cases unequal

/-! ### Adding to sets and maps -/

/-- An element is added only if it is equal to none, so no element is equal to it. -/
theorem unrepeated_adjoin {elements : List Value} {element : Value}
    (sound : Sound (.set elements)) (soundElement : Sound element) :
    Unrepeated (adjoin elements element) := by
  have unrepeated : Unrepeated elements := sound _ .self
  rw [adjoin]
  split
  · exact unrepeated
  · rename_i absent
    refine List.pairwise_append.mpr ⟨unrepeated, List.pairwise_singleton _ _, ?_⟩
    intro other member added same
    rw [List.mem_singleton] at same
    subst same
    refine unequal_symm soundElement.visibly (sound.below member).visibly ?_
    simp only [List.any_eq_true, not_exists, not_and, Bool.not_eq_true] at absent
    exact absent other member

/-- The new key stands in for an old one that it is equal to, or comes after all that it is not
equal to. In the first place later keys stay unequal by transitivity. -/
theorem unrepeated_insertEntry {entries : List (Value × Value)} {key item : Value}
    (unrepeated : Unrepeated (entries.map (·.1))) (sound : Sound key) :
    Unrepeated ((insertEntry entries key item).map (·.1)) := by
  induction entries with
  | nil => exact List.pairwise_singleton _ _
  | cons entry rest ih =>
    obtain ⟨old, value⟩ := entry
    obtain ⟨first, others⟩ := List.pairwise_cons.mp unrepeated
    rw [insertEntry]
    split
    · rename_i same
      refine List.pairwise_cons.mpr ⟨fun later member => ?_, others⟩
      by_contra again
      rw [Bool.not_eq_false] at again
      have whole := equal_trans sound.visibly same again
      rw [first later member] at whole
      cases whole
    · rename_i different
      refine List.pairwise_cons.mpr ⟨fun later member => ?_, ih others⟩
      obtain ⟨entry, among, rfl⟩ := List.mem_map.mp member
      rcases mem_of_mem_insertEntry among with older | rfl
      · exact first _ (List.mem_map_of_mem older)
      · exact Bool.not_eq_true _ ▸ different

end Value

end ScriptLisp
