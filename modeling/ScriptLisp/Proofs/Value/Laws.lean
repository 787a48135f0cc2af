import ScriptLisp.Proofs.Value.Equality

/-!
Equality as an equivalence. On regular values equality is symmetric and transitive. It is reflexive
wherever no `NaN` can be seen, and nowhere else: a value with a `NaN` in it is not equal to
anything.

* `exists_equal_part`: what can be seen in a value has an equal in every value equal to it.
* `equal_self_iff`: the values that are equal to themselves.
* `equality_laws`: the three laws.
-/

namespace ScriptLisp

theorem Decimal.isNaN_iff {x : Float} : x.isNaN = true ↔ comparand? x.toModel.unpack = none := by
  change x.toModel.unpack.isNaN = true ↔ _
  cases x.toModel.unpack with
  | notANumber => exact iff_of_true rfl rfl
  | _ => exact iff_of_false Bool.false_ne_true (Option.some_ne_none _)

/-- A decimal is equal to itself unless it is no number. -/
theorem Decimal.beq_self_iff {x : Float} : (x == x) = true ↔ x.isNaN = false := by
  rw [beq_iff, and_iff_left rfl, ← Bool.not_eq_true, isNaN_iff]

namespace Value

/-- A value is the decimal that is no number. -/
def IsNaN : Value → Prop
  | .decimal d => d.isNaN = true
  | _ => False

/-! ### Values that are equal to something -/

theorem exists_equal_part {x y : Value} (same : equal x y = true) :
    ∀ part ∈ x.visible, ∃ other, equal part other = true := by
  have left {as bs : List Value} (each : List.Forall₂ (fun a b => equal a b = true) as bs) :
      ∀ a ∈ as, ∃ b, equal a b = true := by
    induction each with
    | nil => exact List.forall_mem_nil _
    | cons first _ ih => exact List.forall_mem_cons.mpr ⟨⟨_, first⟩, ih⟩
  -- Of a set or a map only one inclusion is compared, so the parts are those of the left side.
  rw [equal.eq_def] at same
  split at same
  case h_9 | h_10 | h_11 | h_12 => exact left (equalElements_iff.mp same)
  case h_13 =>
    rw [Bool.and_eq_true, allIn_iff] at same
    intro part member
    obtain ⟨other, -, found⟩ := same.2 part member
    exact ⟨other, found⟩
  case h_14 =>
    rw [Bool.and_eq_true, allEntriesIn_iff] at same
    intro part member
    obtain ⟨entry, among, which⟩ := List.mem_flatMap.mp member
    obtain ⟨other, -, key, item⟩ := same.2 entry among
    have either : part = entry.1 ∨ part = entry.2 := by simpa using which
    rcases either with rfl | rfl
    · exact ⟨_, key⟩
    · exact ⟨_, item⟩
  case h_17 => cases same
  all_goals exact List.forall_mem_nil _

/-- A value that is equal to anything has no `NaN` in it. -/
theorem numbered_of_equal {x y : Value} (same : equal x y = true) : Visibly (¬ IsNaN ·) x := by
  induction x using induction_on_parts generalizing y with
  | step x ih =>
    refine ⟨?_, fun part member => ?_⟩
    · intro nan
      cases x with
      | decimal d =>
        cases y with
        | decimal e =>
          have number := (Decimal.beq_iff.mp (by simpa [equal] using same)).1
          exact number (Decimal.isNaN_iff.mp nan)
        | _ => simp [equal] at same
      | _ => exact nan
    · obtain ⟨other, found⟩ := exists_equal_part same part member
      exact ih part (visible_subset_parts member) found

/-! ### Reflexivity -/

theorem equal_self {x : Value} (numbers : Visibly (¬ IsNaN ·) x) : equal x x = true := by
  induction x using induction_on_parts with
  | step x ih =>
    have inside : ∀ part ∈ x.visible, equal part part = true :=
      fun part member => ih part (visible_subset_parts member) (numbers.part member)
    cases x with
    | decimal d =>
      have number : d.isNaN = false := Bool.not_eq_true _ ▸ numbers.here
      simpa [equal] using Decimal.beq_self_iff.mpr number
    | list elements | vector elements =>
      exact equal_of_alike (.sequence rfl rfl (List.forall₂_same.mpr inside))
    | set elements =>
      exact equal_of_alike (.set rfl fun a member => ⟨a, member, inside a member⟩)
    | map entries =>
      refine equal_of_alike (.map rfl fun entry member => ⟨entry, member, ?_⟩)
      obtain ⟨key, item⟩ := mem_parts_map member
      exact ⟨inside _ key, inside _ item⟩
    | _ => simp [equal]

/-- The values that are equal to themselves are those in which no `NaN` can be seen. -/
theorem equal_self_iff {x : Value} : equal x x = true ↔ Visibly (¬ IsNaN ·) x :=
  ⟨numbered_of_equal, equal_self⟩

/-! ### All laws -/

/-- Equality is symmetric and transitive on values in which no ratio divides by zero and nothing
occurs twice in a set or as a key of a map, whatever closures in them hold; for transitivity it is
enough that the value in the middle is one. A value is equal to itself exactly if it has no `NaN` in
it. -/
theorem equality_laws :
    (∀ x y, Regular x → Regular y → equal x y = equal y x) ∧
      (∀ x y z, Regular y → equal x y = true → equal y z = true → equal x z = true) ∧
      ∀ x, equal x x = true ↔ Visibly (¬ IsNaN ·) x := by
  refine ⟨fun x y regularX regularY => ?_, fun x y z => equal_trans, fun x => equal_self_iff⟩
  rw [Bool.eq_iff_iff]
  exact ⟨equal_symm regularX regularY, equal_symm regularY regularX⟩

/-- The set `#{[1/2 nil] {:k 1.5}}`. -/
def vectorFirst : Value :=
  .set [.vector [.rational 1 2, .nil], .map [(.keyword "k", .decimal 1.5)]]

/-- The set `#{{:k 1.5} (2/4 nil)}`, which is equal to it. -/
def mapFirst : Value :=
  .set [.map [(.keyword "k", .decimal 1.5)], .list [.rational 2 4, .nil]]

theorem equality_laws_orders :
    Regular vectorFirst ∧ Regular mapFirst ∧ equal vectorFirst mapFirst = true ∧
      equal mapFirst vectorFirst = true ∧ equal mapFirst mapFirst = true ∧
      Visibly (¬ IsNaN ·) mapFirst := by
  have entry : Regular (.map [(.keyword "k", .decimal 1.5)]) := by
    refine ⟨List.pairwise_singleton _ _, ?_⟩
    exact List.forall_mem_cons.mpr ⟨.leaf trivial rfl, List.forall_mem_singleton.mpr
      (.leaf trivial rfl)⟩
  have ratios (n d : Int64) (nonzero : d ≠ 0) :
      ∀ part ∈ [Value.rational n d, .nil], Regular part :=
    List.forall_mem_cons.mpr ⟨.leaf nonzero rfl, List.forall_mem_singleton.mpr (.leaf trivial rfl)⟩
  have vectorRegular : Regular vectorFirst := by
    refine ⟨by simp [vectorFirst, SoundHere, Unrepeated, equal], ?_⟩
    exact List.forall_mem_cons.mpr ⟨⟨trivial, ratios 1 2 (by decide)⟩,
      List.forall_mem_singleton.mpr entry⟩
  have mapRegular : Regular mapFirst := by
    refine ⟨by simp [mapFirst, SoundHere, Unrepeated, equal], ?_⟩
    exact List.forall_mem_cons.mpr ⟨entry,
      List.forall_mem_singleton.mpr ⟨trivial, ratios 2 4 (by decide)⟩⟩
  have decimals : ((1.5 : Float) == 1.5) = true := Decimal.beq_self_iff.mpr (by decide +kernel)
  have same : equal vectorFirst mapFirst = true := by
    simp [vectorFirst, mapFirst, equal, equalElements, allIn, allEntriesIn, decimals]
  have back : equal mapFirst vectorFirst = true :=
    (equality_laws.1 _ _ vectorRegular mapRegular).symm.trans same
  have itself : equal mapFirst mapFirst = true :=
    equality_laws.2.1 _ _ _ vectorRegular back same
  exact ⟨vectorRegular, mapRegular, same, back, itself, (equality_laws.2.2 _).mp itself⟩

end Value

end ScriptLisp
