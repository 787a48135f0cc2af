import Mathlib.Data.List.Forall2
import ScriptLisp.Form.Display
import ScriptLisp.Proofs.Form.Within
import ScriptLisp.Proofs.Value.Within
import ScriptLisp.Value.Display

/-!
Forms as values and back without loss. Macros are called with the values of forms, and what they
return has to be a form again. A set or a map of a form is made by adding its elements one by one,
and what is there already is not added again; so what comes back is what was there exactly if
nothing occurs twice.

* `Adds`: adding one by one, and when all that is added is kept.
* `toForm?_isSome_iff`, `ofForm_eq_iff`, `toForm?_ofForm_iff`: one level of a conversion, in terms
  of the parts.
* `conversion_lossless`: what can be converted, how it is displayed, and what comes back.
-/

namespace ScriptLisp

/-! ### Adding one by one -/

/-- What is added to some elements is put at their end if it is new, that is, if all of them are so
related to it; otherwise it takes no place of its own. -/
structure Adds {α : Type} (add : List α → α → List α) (r : α → α → Prop) : Prop where
  new : ∀ {held x}, (∀ a ∈ held, r a x) → add held x = held ++ [x]
  old : ∀ {held x}, (¬ ∀ a ∈ held, r a x) → (add held x).length = held.length

namespace Adds

variable {α : Type} {add : List α → α → List α} {r : α → α → Prop}

/-- Elements that are apart are added one after the other, and all are kept. -/
theorem foldl_eq (adds : Adds add r) (held : List α) {xs : List α}
    (apart : (held ++ xs).Pairwise r) : xs.foldl add held = held ++ xs := by
  induction xs generalizing held with
  | nil => exact (List.append_nil held).symm
  | cons x xs ih =>
    have fresh : ∀ a ∈ held, r a x :=
      fun a member => (List.pairwise_append.mp apart).2.2 a member x List.mem_cons_self
    rw [List.append_cons] at apart ⊢
    rw [List.foldl_cons, adds.new fresh, ih (held ++ [x]) apart]

/-- Adding never makes more elements than there are. -/
theorem length_foldl_le (adds : Adds add r) (held xs : List α) :
    (xs.foldl add held).length ≤ held.length + xs.length := by
  induction xs generalizing held with
  | nil => exact Nat.le_refl _
  | cons x xs ih =>
    have rest := ih (add held x)
    rw [List.foldl_cons, List.length_cons]
    by_cases fresh : ∀ a ∈ held, r a x
    · rw [adds.new fresh, List.length_append, List.length_singleton] at rest
      rw [adds.new fresh]
      omega
    · rw [adds.old fresh] at rest
      omega

/-- If none was lost, all elements are apart from those before them. -/
theorem pairwise_of_length (adds : Adds add r) (held : List α) {xs : List α}
    (apart : held.Pairwise r) (length : (xs.foldl add held).length = held.length + xs.length) :
    (held ++ xs).Pairwise r := by
  induction xs generalizing held with
  | nil => rwa [List.append_nil]
  | cons x xs ih =>
    rw [List.foldl_cons, List.length_cons] at length
    by_cases fresh : ∀ a ∈ held, r a x
    · rw [adds.new fresh] at length
      rw [List.append_cons]
      refine ih (held ++ [x]) ?_ (by rw [length, List.length_append, List.length_singleton]; omega)
      refine List.pairwise_append.mpr ⟨apart, List.pairwise_singleton _ _, ?_⟩
      intro a member y last
      exact List.mem_singleton.mp last ▸ fresh a member
    · -- What is not kept cannot be made up for: each element adds one at most.
      have short := adds.length_foldl_le (add held x) xs
      rw [adds.old fresh] at short
      omega

/-- What is known to have as many elements as were added holds of the result if each was new, and
so was kept. -/
theorem holds_foldl_iff (adds : Adds add r) {xs : List α} {p : List α → Prop}
    (length : ∀ ys, p ys → ys.length = xs.length) :
    p (xs.foldl add []) ↔ xs.Pairwise r ∧ p xs := by
  have kept (apart : xs.Pairwise r) : xs.foldl add [] = xs := adds.foldl_eq [] apart
  constructor
  · intro holds
    have apart : xs.Pairwise r := by
      refine adds.pairwise_of_length [] .nil ?_
      rw [length _ holds, List.length_nil, Nat.zero_add]
    exact ⟨apart, kept apart ▸ holds⟩
  · rintro ⟨apart, holds⟩
    exact (kept apart).symm ▸ holds

end Adds

namespace Value

/-- A set gets elements that are not equal to one in it. -/
theorem adds_adjoin : Adds adjoin fun a b => equal b a = false where
  new fresh := by
    rw [adjoin, if_neg]
    simpa using fresh
  old known := by
    rw [adjoin, if_pos]
    simpa using known

/-- A map gets entries under keys that are not equal to one in it. -/
theorem adds_insertEntry :
    Adds (fun entries entry => insertEntry entries entry.1 entry.2)
      fun a b => equal a.1 b.1 = false where
  new {held entry} fresh := by
    induction held with
    | nil => rfl
    | cons first rest ih =>
      obtain ⟨here, later⟩ := List.forall_mem_cons.mp fresh
      simp only [insertEntry, here, Bool.false_eq_true, if_false, ih later, List.cons_append]
  old {held entry} known := by
    induction held with
    | nil => exact absurd (List.forall_mem_nil _) known
    | cons first rest ih =>
      rw [insertEntry]
      split
      · rfl
      · rename_i here
        refine congrArg Nat.succ (ih fun later => known ?_)
        exact List.forall_mem_cons.mpr ⟨Bool.not_eq_true _ ▸ here, later⟩

/-! ### Nothing twice -/

/-- No element of a set is equal to one before it, and no key of a map has one before it that is
equal to it. So it is for all sets and maps in which no two elements or keys are equal; where
equality is not symmetric, this asks for less. -/
def UnrepeatedHere : Value → Prop
  | .set elements => elements.Pairwise fun a b => equal b a = false
  | .map entries => entries.Pairwise fun a b => equal a.1 b.1 = false
  | _ => True

/-- A set made of as many elements as it has is made of its elements, none of them twice. -/
theorem setOf_eq_iff {xs ys : List Value} (length : xs.length = ys.length) :
    setOf xs = .set ys ↔ UnrepeatedHere (.set ys) ∧ xs = ys := by
  have whole := adds_adjoin.holds_foldl_iff (p := (· = ys)) fun zs same => same ▸ length.symm
  rw [setOf, set.injEq, whole]
  exact and_congr_left fun same => same ▸ Iff.rfl

/-- A map made of as many entries as it has is made of its entries, no key twice. -/
theorem mapOf_eq_iff {xs ys : List (Value × Value)} (length : xs.length = ys.length) :
    mapOf xs = .map ys ↔ UnrepeatedHere (.map ys) ∧ xs = ys := by
  have whole := adds_insertEntry.holds_foldl_iff (p := (· = ys)) fun zs same => same ▸ length.symm
  rw [mapOf, map.injEq]
  exact whole.trans (and_congr_left fun same => same ▸ Iff.rfl)

/-! ### Sequences and entries -/

theorem ofForms_eq_map (forms : List Form) : ofForms forms = forms.map ofForm := by
  induction forms with
  | nil => rfl
  | cons form forms ih => rw [ofForms, List.map_cons, ih]

theorem ofEntries_eq_map (entries : List (Form × Form)) :
    ofEntries entries = entries.map fun entry => (ofForm entry.1, ofForm entry.2) := by
  induction entries with
  | nil => rfl
  | cons entry entries ih => rw [ofEntries, List.map_cons, ih]

/-- Values are converted one by one. -/
theorem toForms?_iff {values : List Value} {forms : List Form} :
    toForms? values = some forms ↔
      List.Forall₂ (fun value form => toForm? value = some form) values forms := by
  induction values generalizing forms with
  | nil => cases forms <;> simp [toForms?]
  | cons value values ih => cases forms <;> simp [toForms?, Option.bind_eq_some_iff, ih]

/-- Keys and values are converted one by one. -/
theorem toEntries?_iff {entries : List (Value × Value)} {forms : List (Form × Form)} :
    toEntries? entries = some forms ↔
      List.Forall₂ (fun entry form => toForm? entry.1 = some form.1 ∧ toForm? entry.2 = some form.2)
        entries forms := by
  induction entries generalizing forms with
  | nil => cases forms <;> simp [toEntries?]
  | cons entry entries ih =>
    cases forms <;> simp [toEntries?, Option.bind_eq_some_iff, ih, Prod.ext_iff, and_assoc]

/-- Values have forms exactly if each one has. -/
theorem toForms?_isSome_iff {values : List Value} :
    (toForms? values).isSome = true ↔ ∀ value ∈ values, (toForm? value).isSome = true := by
  induction values with
  | nil => simp [toForms?]
  | cons value values ih =>
    rw [List.forall_mem_cons, ← ih, toForms?]
    cases toForm? value <;> cases toForms? values <;> simp

theorem forall_visible_map_cons {p : Value → Prop} {entry : Value × Value}
    {entries : List (Value × Value)} :
    (∀ part ∈ (map (entry :: entries)).visible, p part) ↔
      p entry.1 ∧ p entry.2 ∧ ∀ part ∈ (map entries).visible, p part := by
  have split : (map (entry :: entries)).visible =
      entry.1 :: entry.2 :: (map entries).visible := rfl
  rw [split, List.forall_mem_cons, List.forall_mem_cons]

/-- Entries have forms exactly if their visible parts have. -/
theorem toEntries?_isSome_iff {entries : List (Value × Value)} :
    (toEntries? entries).isSome = true ↔
      ∀ part ∈ (map entries).visible, (toForm? part).isSome = true := by
  induction entries with
  | nil => simp [toEntries?, visible, parts]
  | cons entry entries ih =>
    rw [forall_visible_map_cons, ← ih, toEntries?]
    cases toForm? entry.1 <;> cases toForm? entry.2 <;> cases toEntries? entries <;> simp

/-! ### What has a form -/

def IsProcedure : Value → Prop
  | .builtin _ | .closure _ _ _ => True
  | _ => False

/-- Here and one step below; the next theorem says the same for all of the value. -/
theorem toForm?_isSome_iff {value : Value} :
    (toForm? value).isSome = true ↔
      ¬ IsProcedure value ∧ ∀ part ∈ value.visible, (toForm? part).isSome = true := by
  cases value with
  | list elements | vector elements | set elements =>
    have each : (∀ part ∈ elements, (toForm? part).isSome = true) ↔ _ := toForms?_isSome_iff.symm
    simp only [visible, parts, IsProcedure, each, toForm?]
    cases toForms? elements <;> simp
  | map entries =>
    rw [← toEntries?_isSome_iff, toForm?]
    cases toEntries? entries <;> simp [IsProcedure]
  | _ => simp [toForm?, IsProcedure, visible, parts]

/-- The values that have a form are those in which no procedure can be seen. -/
theorem toForm?_isSome_iff_visibly {value : Value} :
    (toForm? value).isSome = true ↔ Visibly (¬ IsProcedure ·) value := by
  induction value using induction_on_parts with
  | step value ih =>
    rw [toForm?_isSome_iff, visibly_iff]
    exact and_congr_right fun _ => forall₂_congr fun part member =>
      ih part (visible_subset_parts member)

/-! ### How it is displayed -/

theorem elementChars_congr {values : List Value} {forms : List Form}
    (each : List.Forall₂ (fun value form => form.chars = value.chars) values forms) :
    Form.elementChars forms = elementChars values := by
  induction each with
  | nil => rfl
  | cons here rest ih =>
    cases rest with
    | nil => exact here
    | cons => rw [Form.elementChars, elementChars, here, ih] <;> exact List.cons_ne_nil _ _

theorem entryChars_congr {entries : List (Value × Value)} {forms : List (Form × Form)}
    (each : List.Forall₂ (fun entry form => form.1.chars = entry.1.chars ∧
      form.2.chars = entry.2.chars) entries forms) :
    Form.entryChars forms = entryChars entries := by
  induction each with
  | nil => rfl
  | cons here rest ih =>
    obtain ⟨key, item⟩ := here
    cases rest with
    | nil => rw [Form.entryChars, entryChars, key, item]
    | cons => rw [Form.entryChars, entryChars, key, item, ih] <;> exact List.cons_ne_nil _ _

/-- By induction on the value, along the way its form is made. -/
theorem chars_of_toForm? {value : Value} {form : Form} (converted : toForm? value = some form) :
    form.chars = value.chars := by
  induction value using induction_on_parts generalizing form with
  | step value ih =>
    cases value with
    | list elements | vector elements | set elements =>
      obtain ⟨forms, each, rfl⟩ := by
        simpa [toForm?, Option.bind_eq_some_iff] using converted
      have same := (List.forall₂_and_left elements forms).mpr ⟨ih, toForms?_iff.mp each⟩
      simp only [Form.chars, chars, elementChars_congr (same.imp fun _ _ pair => pair.1 pair.2)]
    | map entries =>
      obtain ⟨forms, each, rfl⟩ := by
        simpa [toForm?, Option.bind_eq_some_iff] using converted
      have below := fun entry (member : entry ∈ entries) => mem_parts_map member
      have same := (List.forall₂_and_left _ _).mpr ⟨below, toEntries?_iff.mp each⟩
      have alike := same.imp fun _ _ pair =>
        And.intro (ih _ pair.1.1 pair.2.1) (ih _ pair.1.2 pair.2.2)
      simp only [Form.chars, chars, entryChars_congr alike]
    | boolean b => cases converted; cases b <;> rfl
    | builtin | closure => cases converted
    | _ => cases converted; simp only [Form.chars, chars]

/-- A value and its form have the same display. -/
theorem display_of_toForm? {value : Value} {form : Form} (converted : toForm? value = some form) :
    form.display = value.display := by
  rw [Form.display, display, chars_of_toForm? converted]

/-! ### What comes back from values -/

/-- If a value has a form, it is the value of that form. -/
def ComesBack (value : Value) : Prop :=
  ∀ form, toForm? value = some form → ofForm form = value

/-- A value comes back exactly if its form is made into it again. -/
theorem comesBack_iff {value : Value} {form : Form} (converted : toForm? value = some form) :
    ComesBack value ↔ ofForm form = value := by
  simp [ComesBack, converted]

theorem ofForms_eq_iff {values : List Value} {forms : List Form}
    (converted : toForms? values = some forms) :
    ofForms forms = values ↔ ∀ value ∈ values, ComesBack value := by
  induction toForms?_iff.mp converted with
  | nil => exact iff_of_true rfl (List.forall_mem_nil _)
  | cons here rest ih =>
    rw [ofForms, List.cons.injEq, List.forall_mem_cons, ih (toForms?_iff.mpr rest),
      comesBack_iff here]

theorem ofEntries_eq_iff {entries : List (Value × Value)} {forms : List (Form × Form)}
    (converted : toEntries? entries = some forms) :
    ofEntries forms = entries ↔ ∀ part ∈ (map entries).visible, ComesBack part := by
  induction toEntries?_iff.mp converted with
  | nil => exact iff_of_true rfl (List.forall_mem_nil _)
  | @cons entry form entries forms here rest ih =>
    rw [forall_visible_map_cons, comesBack_iff here.1, comesBack_iff here.2,
      ← ih (toEntries?_iff.mpr rest), ofEntries, List.cons.injEq, Prod.ext_iff, and_assoc]

/-- Here and one step below: only sets and maps can lose something when they are made again. -/
theorem ofForm_eq_iff {value : Value} {form : Form} (converted : toForm? value = some form) :
    ofForm form = value ↔ UnrepeatedHere value ∧ ∀ part ∈ value.visible, ComesBack part := by
  cases value with
  | list elements | vector elements =>
    obtain ⟨forms, each, rfl⟩ := by
      simpa [toForm?, Option.bind_eq_some_iff] using converted
    simp only [ofForm, list.injEq, vector.injEq, ofForms_eq_iff each, UnrepeatedHere, true_and,
      visible, parts]
  | set elements =>
    obtain ⟨forms, each, rfl⟩ := by
      simpa [toForm?, Option.bind_eq_some_iff] using converted
    have length := (toForms?_iff.mp each).length_eq
    rw [ofForm, setOf_eq_iff (by rw [ofForms_eq_map, List.length_map, length]), ofForms_eq_iff each]
    rfl
  | map entries =>
    obtain ⟨forms, each, rfl⟩ := by
      simpa [toForm?, Option.bind_eq_some_iff] using converted
    have length := (toEntries?_iff.mp each).length_eq
    rw [ofForm, mapOf_eq_iff (by rw [ofEntries_eq_map, List.length_map, length]),
      ofEntries_eq_iff each]
  | builtin | closure => cases converted
  | _ =>
    cases converted
    exact iff_of_true (by rw [ofForm]) ⟨trivial, List.forall_mem_nil _⟩

/-- What comes back from a value that has a form is the value itself exactly if nothing occurs twice
in a set or as a key of a map that can be seen in it. -/
theorem ofForm_eq_iff_visibly {value : Value} {form : Form}
    (converted : toForm? value = some form) :
    ofForm form = value ↔ Visibly UnrepeatedHere value := by
  induction value using induction_on_parts generalizing form with
  | step value ih =>
    rw [ofForm_eq_iff converted, visibly_iff]
    refine and_congr_right fun _ => forall₂_congr fun part member => ?_
    have some := (toForm?_isSome_iff.mp (Option.isSome_of_mem converted)).2 part member
    obtain ⟨form, found⟩ := Option.isSome_iff_exists.mp some
    rw [comesBack_iff found]
    exact ih part (visible_subset_parts member) found

end Value

/-! ### What comes back from forms -/

open Value (ofForms ofEntries)

/-- The values of the elements of a set, or of the keys of a map, are not repeated. -/
def Form.UnrepeatedHere : Form → Prop
  | .set elements => Value.UnrepeatedHere (.set (ofForms elements))
  | .map entries => Value.UnrepeatedHere (.map (ofEntries entries))
  | _ => True

namespace Value

/-- Forms come back in order exactly if each one does. -/
theorem toForms?_ofForms_iff {forms : List Form} :
    toForms? (ofForms forms) = some forms ↔
      ∀ form ∈ forms, toForm? (ofForm form) = some form := by
  rw [toForms?_iff, ofForms_eq_map, List.forall₂_map_left_iff, List.forall₂_same]

theorem toEntries?_ofEntries_iff {entries : List (Form × Form)} :
    toEntries? (ofEntries entries) = some entries ↔
      ∀ part ∈ (Form.map entries).parts, toForm? (ofForm part) = some part := by
  rw [toEntries?_iff, ofEntries_eq_map, List.forall₂_map_left_iff, List.forall₂_same]
  simp only [Form.parts, List.forall_mem_flatMap, List.forall_mem_cons, List.not_mem_nil,
    false_imp_iff, implies_true, and_true]

/-- A set comes back if it lost no element and its elements come back. -/
theorem toForm?_setOf_iff {values : List Value} {forms : List Form}
    (length : forms.length = values.length) :
    toForm? (setOf values) = some (.set forms) ↔
      UnrepeatedHere (.set values) ∧ toForms? values = some forms := by
  have elements : toForm? (setOf values) = some (.set forms) ↔
      toForms? (values.foldl adjoin []) = some forms := by
    simp [setOf, toForm?, Option.bind_eq_some_iff]
  rw [elements]
  refine adds_adjoin.holds_foldl_iff (p := (toForms? · = some forms)) fun others converted => ?_
  exact (toForms?_iff.mp converted).length_eq.trans length

/-- A map comes back if it lost no entry and its entries come back. -/
theorem toForm?_mapOf_iff {entries : List (Value × Value)} {forms : List (Form × Form)}
    (length : forms.length = entries.length) :
    toForm? (mapOf entries) = some (.map forms) ↔
      UnrepeatedHere (.map entries) ∧ toEntries? entries = some forms := by
  have pairs : toForm? (mapOf entries) = some (.map forms) ↔
      toEntries? (entries.foldl (fun held entry => insertEntry held entry.1 entry.2) []) =
        some forms := by
    simp [mapOf, toForm?, Option.bind_eq_some_iff]
  rw [pairs]
  refine adds_insertEntry.holds_foldl_iff (p := (toEntries? · = some forms))
    fun others converted => ?_
  exact (toEntries?_iff.mp converted).length_eq.trans length

/-- Here and one step below, for forms. -/
theorem toForm?_ofForm_iff {form : Form} :
    toForm? (ofForm form) = some form ↔
      form.UnrepeatedHere ∧ ∀ part ∈ form.parts, toForm? (ofForm part) = some part := by
  cases form with
  | list elements | vector elements =>
    have same : toForms? (ofForms elements) = some elements ↔ _ := toForms?_ofForms_iff
    simpa [ofForm, toForm?, Option.bind_eq_some_iff, Form.UnrepeatedHere, Form.parts] using same
  | set elements =>
    have length : elements.length = (ofForms elements).length := by
      rw [ofForms_eq_map, List.length_map]
    rw [ofForm, toForm?_setOf_iff length, toForms?_ofForms_iff]
    rfl
  | map entries =>
    have length : entries.length = (ofEntries entries).length := by
      rw [ofEntries_eq_map, List.length_map]
    rw [ofForm, toForm?_mapOf_iff length, toEntries?_ofEntries_iff]
    rfl
  | _ => exact iff_of_true (by simp only [ofForm, toForm?]) ⟨trivial, List.forall_mem_nil _⟩

/-- A form comes back from its value exactly if no two elements of a set in it, and no two keys of a
map, have equal values. -/
theorem toForm?_ofForm_iff_within {form : Form} :
    toForm? (ofForm form) = some form ↔
      ∀ inner, Form.Within Form.parts inner form → inner.UnrepeatedHere := by
  induction form using Form.induction_on_parts with
  | step form ih =>
    rw [toForm?_ofForm_iff, Form.forall_within_iff]
    exact and_congr_right fun _ => forall₂_congr ih

/-! ### Both ways -/

/-- A value has a form exactly if there is no procedure in it. The form is displayed as the value
is, and its value is the value it came from exactly if nothing occurs twice in a set or as a key of
a map. A form comes back from its value exactly if in none of its sets two elements, and in none of
its maps two keys, have equal values. -/
theorem conversion_lossless :
    (∀ value, (∃ form, toForm? value = some form) ↔ Visibly (¬ IsProcedure ·) value) ∧
      (∀ value form, toForm? value = some form →
        form.display = value.display ∧ (ofForm form = value ↔ Visibly UnrepeatedHere value)) ∧
      ∀ form, toForm? (ofForm form) = some form ↔
        ∀ inner, Form.Within Form.parts inner form → inner.UnrepeatedHere := by
  refine ⟨fun value => ?_, fun value form converted => ?_, fun form => toForm?_ofForm_iff_within⟩
  · rw [← Option.isSome_iff_exists, toForm?_isSome_iff_visibly]
  · exact ⟨display_of_toForm? converted, ofForm_eq_iff_visibly converted⟩

/-- The map `{#{1/2 ()} :half, :k nil}`. -/
def halves : Value :=
  .map [(.set [.rational 1 2, .list []], .keyword "half"), (.keyword "k", .nil)]

/-- The same as a form. -/
def halvesForm : Form :=
  .map [(.set [.rational 1 2, .list []], .keyword "half"), (.keyword "k", .nil)]

theorem conversion_lossless_halves :
    toForm? halves = some halvesForm ∧ halvesForm.display = halves.display ∧
      Visibly UnrepeatedHere halves ∧ ofForm halvesForm = halves := by
  have whole : Visibly UnrepeatedHere halves := by
    refine ⟨by simp [halves, UnrepeatedHere, equal], ?_⟩
    have key : Visibly UnrepeatedHere (.set [.rational 1 2, .list []]) := by
      refine ⟨by simp [UnrepeatedHere, equal], ?_⟩
      exact List.forall_mem_cons.mpr ⟨.leaf trivial rfl, List.forall_mem_singleton.mpr
        (.leaf trivial rfl)⟩
    simp only [halves, visible, parts, List.forall_mem_flatMap, List.forall_mem_cons]
    exact ⟨⟨key, .leaf trivial rfl, List.forall_mem_nil _⟩,
      ⟨.leaf trivial rfl, .leaf trivial rfl, List.forall_mem_nil _⟩, List.forall_mem_nil _⟩
  have converted : toForm? halves = some halvesForm := by rfl
  have lossless := conversion_lossless.2.1 halves halvesForm converted
  exact ⟨converted, lossless.1, whole, lossless.2.mpr whole⟩

end Value

end ScriptLisp
