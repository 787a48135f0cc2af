import ScriptLisp.Proofs.Value.Within
import ScriptLisp.Value.Display

/-!
Other identities for procedures. An identity is a number that tells one closure from another, and
nothing else can be learned from it: a value under other identities is equal to the same values, has
the same text, and is taken apart and built up in the same way, as long as different identities stay
different.

* `Renumbering`: other identities, different ones for different ones.
* `Value.renumber`: a value under other identities, at every depth.
* `equal_renumber`, `display_renumber`: what is asked of values is not changed.
* `elements?_renumber`, `setOf_renumber`, `mapOf_renumber`: values are taken apart and built up
  alike.
* `renumber_eq_self_iff`: a value stays as it is if the identities of its closures are kept, and
  only then.
-/

namespace ScriptLisp

/-- Other identities for procedures, different ones for different ones. A machine that counts under
them is ahead by `shift`. -/
structure Renumbering where
  identity : Nat → Nat
  injective : Function.Injective identity
  shift : Nat

namespace Value

/-! ### Renumbering a value -/

mutual

/-- A value under other identities. -/
def renumber (numbering : Renumbering) : Value → Value
  | .list elements => .list (renumberAll numbering elements)
  | .vector elements => .vector (renumberAll numbering elements)
  | .set elements => .set (renumberAll numbering elements)
  | .map entries => .map (renumberEntries numbering entries)
  | .closure identity function environment =>
    .closure (numbering.identity identity) function (renumberBindings numbering environment)
  | value => value

def renumberAll (numbering : Renumbering) : List Value → List Value
  | [] => []
  | value :: rest => renumber numbering value :: renumberAll numbering rest

/-- The keys and the values of all entries under other identities. -/
def renumberEntries (numbering : Renumbering) : List (Value × Value) → List (Value × Value)
  | [] => []
  | (key, item) :: rest =>
    (renumber numbering key, renumber numbering item) :: renumberEntries numbering rest

def renumberBindings (numbering : Renumbering) : List (Variable × Value) → List (Variable × Value)
  | [] => []
  | (name, value) :: rest => (name, renumber numbering value) :: renumberBindings numbering rest

end

/-- The key and the value of an entry under other identities. -/
def renumberEntry (numbering : Renumbering) (entry : Value × Value) : Value × Value :=
  (entry.1.renumber numbering, entry.2.renumber numbering)

end Value

/-- Bindings of values under other identities. -/
def Environment.renumber (numbering : Renumbering) (environment : Environment) : Environment :=
  environment.map fun binding => (binding.1, binding.2.renumber numbering)

namespace Value

variable {numbering : Renumbering}

/-- The mutual definition on lists of values is `map`. -/
theorem renumberAll_eq_map (values : List Value) :
    renumberAll numbering values = values.map (renumber numbering) := by
  induction values with
  | nil => rfl
  | cons value rest ih => rw [renumberAll, ih, List.map_cons]

/-- The mutual definition on entries is `map`. -/
theorem renumberEntries_eq_map (entries : List (Value × Value)) :
    renumberEntries numbering entries = entries.map (renumberEntry numbering) := by
  induction entries with
  | nil => rfl
  | cons entry rest ih =>
    rw [renumberEntries, ih]
    rfl

/-- The mutual definition on bindings is that on environments. -/
theorem renumberBindings_eq_renumber (environment : Environment) :
    renumberBindings numbering environment = environment.renumber numbering := by
  induction environment with
  | nil => rfl
  | cons binding rest ih =>
    rw [renumberBindings, ih]
    rfl

@[simp]
theorem renumber_list (elements : List Value) :
    renumber numbering (.list elements) = .list (elements.map (renumber numbering)) := by
  rw [renumber, renumberAll_eq_map]

@[simp]
theorem renumber_vector (elements : List Value) :
    renumber numbering (.vector elements) = .vector (elements.map (renumber numbering)) := by
  rw [renumber, renumberAll_eq_map]

@[simp]
theorem renumber_set (elements : List Value) :
    renumber numbering (.set elements) = .set (elements.map (renumber numbering)) := by
  rw [renumber, renumberAll_eq_map]

@[simp]
theorem renumber_map (entries : List (Value × Value)) :
    renumber numbering (.map entries) = .map (entries.map (renumberEntry numbering)) := by
  rw [renumber, renumberEntries_eq_map]

@[simp]
theorem renumber_closure (identity : Nat) (function : Lambda) (environment : Environment) :
    renumber numbering (.closure identity function environment) =
      .closure (numbering.identity identity) function (environment.renumber numbering) := by
  rw [renumber, renumberBindings_eq_renumber]

/-! ### What is asked of values -/

@[simp]
theorem isTruthy_renumber (value : Value) :
    (value.renumber numbering).isTruthy = value.isTruthy := by
  cases value <;> rfl

@[simp]
theorem isNumber_renumber (value : Value) :
    (value.renumber numbering).isNumber = value.isNumber := by
  cases value <;> rfl

@[simp]
theorem typeName_renumber (value : Value) :
    (value.renumber numbering).typeName = value.typeName := by
  cases value <;> rfl

/-- Texts of elements that keep their texts. -/
theorem elementChars_renumber {elements : List Value}
    (each : ∀ element ∈ elements, (element.renumber numbering).chars = element.chars) :
    elementChars (elements.map (renumber numbering)) = elementChars elements := by
  induction elements with
  | nil => rfl
  | cons first rest ih =>
    obtain ⟨here, later⟩ := List.forall_mem_cons.mp each
    cases rest with
    | nil => exact here
    | cons second others =>
      rw [List.map_cons, elementChars, here, ih later]
      · rfl
      · exact List.cons_ne_nil _ _

theorem entryChars_renumber {entries : List (Value × Value)}
    (each : ∀ entry ∈ entries, (entry.1.renumber numbering).chars = entry.1.chars ∧
      (entry.2.renumber numbering).chars = entry.2.chars) :
    entryChars (entries.map (renumberEntry numbering)) = entryChars entries := by
  induction entries with
  | nil => rfl
  | cons first rest ih =>
    obtain ⟨⟨key, item⟩, later⟩ := List.forall_mem_cons.mp each
    cases rest with
    | nil => simp only [List.map_cons, List.map_nil, renumberEntry, entryChars, key, item]
    | cons second others =>
      rw [List.map_cons, renumberEntry, entryChars, key, item, ih later]
      · rfl
      · exact List.cons_ne_nil _ _

/-- A closure shows nothing of itself but that it is a function. -/
theorem chars_renumber (value : Value) : (value.renumber numbering).chars = value.chars := by
  induction value using induction_on_parts with
  | step value ih =>
    cases value with
    | list elements | vector elements | set elements =>
      have same : elementChars (elements.map (renumber numbering)) = elementChars elements :=
        elementChars_renumber ih
      simp only [renumber_list, renumber_vector, renumber_set, chars, same]
    | map entries =>
      have same : entryChars (entries.map (renumberEntry numbering)) = entryChars entries :=
        entryChars_renumber fun entry member =>
          ⟨ih _ (mem_parts_map member).1, ih _ (mem_parts_map member).2⟩
      rw [renumber_map, chars, chars, same]
    | closure => rw [renumber_closure, chars, chars]
    | _ => rfl

/-- What a value displays as does not show identities. -/
@[simp]
theorem display_renumber (value : Value) : (value.renumber numbering).display = value.display :=
  congrArg String.ofList (chars_renumber value)

/-! ### Equality -/

/-- A value is equal to the same values under other identities. -/
abbrev EqualAlike (numbering : Renumbering) (a : Value) : Prop :=
  ∀ b, equal (a.renumber numbering) (b.renumber numbering) = equal a b

/-- Elements in order, by the induction hypothesis of `equal_renumber` for each. -/
theorem equalElements_renumber {as : List Value} (each : ∀ a ∈ as, EqualAlike numbering a)
    (bs : List Value) :
    equalElements (as.map (renumber numbering)) (bs.map (renumber numbering)) =
      equalElements as bs := by
  induction as generalizing bs with
  | nil => cases bs <;> simp [equalElements]
  | cons a as ih =>
    obtain ⟨here, later⟩ := List.forall_mem_cons.mp each
    cases bs with
    | nil => simp [equalElements]
    | cons b bs => simp only [List.map_cons, equalElements, here b, ih later bs]

/-- Elements without order: each one is looked for among all of the others. -/
theorem allIn_renumber {as : List Value} (each : ∀ a ∈ as, EqualAlike numbering a)
    (bs : List Value) :
    allIn (as.map (renumber numbering)) (bs.map (renumber numbering)) = allIn as bs := by
  induction as with
  | nil => simp [allIn]
  | cons a as ih =>
    obtain ⟨here, later⟩ := List.forall_mem_cons.mp each
    simp only [List.map_cons, allIn, List.any_map, Function.comp_def, here _, ih later]

theorem allEntriesIn_renumber {as : List (Value × Value)}
    (each : ∀ a ∈ as, EqualAlike numbering a.1 ∧ EqualAlike numbering a.2)
    (bs : List (Value × Value)) :
    allEntriesIn (as.map (renumberEntry numbering)) (bs.map (renumberEntry numbering)) =
      allEntriesIn as bs := by
  induction as with
  | nil => simp [allEntriesIn]
  | cons a as ih =>
    obtain ⟨key, item⟩ := a
    obtain ⟨⟨sameKey, sameItem⟩, later⟩ := List.forall_mem_cons.mp each
    simp only [List.map_cons, allEntriesIn, renumberEntry, List.any_map, Function.comp_def,
      sameKey _, sameItem _, ih later]

/-- Equality asks of two identities only whether they are the same, which a renumbering without
collisions keeps. -/
@[simp]
theorem equal_renumber (a b : Value) :
    equal (a.renumber numbering) (b.renumber numbering) = equal a b := by
  induction a using induction_on_parts generalizing b with
  | step a ih =>
    cases a with
    | list as | vector as =>
      have each : ∀ a ∈ as, EqualAlike numbering a := ih
      cases b with
      | list bs | vector bs => simpa [equal] using equalElements_renumber each bs
      | _ => simp [equal, renumber]
    | set as =>
      have each : ∀ a ∈ as, EqualAlike numbering a := ih
      cases b with
      | set bs => simp [equal, allIn_renumber each bs]
      | _ => simp [equal, renumber]
    | map as =>
      have each : ∀ a ∈ as, EqualAlike numbering a.1 ∧ EqualAlike numbering a.2 :=
        fun entry member => ⟨ih _ (mem_parts_map member).1, ih _ (mem_parts_map member).2⟩
      cases b with
      | map bs => simp [equal, allEntriesIn_renumber each bs]
      | _ => simp [equal, renumber]
    | closure identity function environment =>
      cases b with
      | closure other =>
        rw [renumber_closure, renumber_closure, equal, equal, Bool.beq_eq_decide_eq,
          Bool.beq_eq_decide_eq]
        simp [numbering.injective.eq_iff]
      | _ => simp [equal, renumber]
    | _ => cases b <;> simp [equal, renumber]

@[simp]
theorem identical_renumber (a b : Value) :
    identical (a.renumber numbering) (b.renumber numbering) = identical a b := by
  rw [identical, identical, typeName_renumber, typeName_renumber, equal_renumber]

/-! ### Taking values apart and building them up -/

theorem elements?_renumber (value : Value) :
    (value.renumber numbering).elements? =
      value.elements?.map (List.map (renumber numbering)) := by
  cases value with
  | list | vector | set => simp [elements?]
  | map entries => simp [elements?, renumberEntry]
  | string text =>
    simp only [renumber, elements?, Option.map_some, List.map_map]
    rfl
  | _ => rfl

/-- An element is new among renumbered elements exactly if it was new before. -/
theorem adjoin_renumber (elements : List Value) (element : Value) :
    adjoin (elements.map (renumber numbering)) (element.renumber numbering) =
      (adjoin elements element).map (renumber numbering) := by
  rw [adjoin, adjoin, List.any_map]
  simp only [Function.comp_def, equal_renumber]
  split
  · rfl
  · rw [List.map_append]
    rfl

theorem foldl_adjoin_renumber (additions elements : List Value) :
    (additions.map (renumber numbering)).foldl adjoin (elements.map (renumber numbering)) =
      (additions.foldl adjoin elements).map (renumber numbering) := by
  induction additions generalizing elements with
  | nil => rfl
  | cons first rest ih => rw [List.map_cons, List.foldl_cons, adjoin_renumber, ih, List.foldl_cons]

theorem setOf_renumber (elements : List Value) :
    setOf (elements.map (renumber numbering)) = (setOf elements).renumber numbering := by
  rw [setOf, setOf, renumber_set]
  exact congrArg Value.set (foldl_adjoin_renumber elements [])

/-- An entry replaces the same entry as before, since keys are equal exactly as before. -/
theorem insertEntry_renumber (entries : List (Value × Value)) (key item : Value) :
    insertEntry (entries.map (renumberEntry numbering)) (key.renumber numbering)
        (item.renumber numbering) =
      (insertEntry entries key item).map (renumberEntry numbering) := by
  induction entries with
  | nil => rfl
  | cons entry rest ih =>
    obtain ⟨old, value⟩ := entry
    rw [List.map_cons, renumberEntry, insertEntry, insertEntry, equal_renumber]
    split
    · rfl
    · rw [ih]
      rfl

theorem mapOf_renumber (entries : List (Value × Value)) :
    mapOf (entries.map (renumberEntry numbering)) = (mapOf entries).renumber numbering := by
  have all (held : List (Value × Value)) :
      (entries.map (renumberEntry numbering)).foldl
          (fun held entry => insertEntry held entry.1 entry.2)
          (held.map (renumberEntry numbering)) =
        (entries.foldl (fun held entry => insertEntry held entry.1 entry.2) held).map
          (renumberEntry numbering) := by
    induction entries generalizing held with
    | nil => rfl
    | cons entry rest ih =>
      rw [List.map_cons, List.foldl_cons, List.foldl_cons, ← ih]
      exact congrArg (List.foldl _ · _) (insertEntry_renumber held entry.1 entry.2)
  rw [mapOf, mapOf, renumber_map]
  exact congrArg Value.map (all [])

/-! ### Identities that are kept -/

/-- The identity of a closure has some property. -/
def IdentityHere (p : Nat → Prop) : Value → Prop
  | .closure identity _ _ => p identity
  | _ => True

/-- The identities of all closures in a value have some property. -/
abbrev Identities (p : Nat → Prop) (value : Value) : Prop :=
  Throughout (IdentityHere p) value

/-- A weaker condition holds of the identities as well. -/
theorem Identities.imp {p q : Nat → Prop} {value : Value}
    (implies : ∀ identity, p identity → q identity) (all : value.Identities p) :
    value.Identities q := by
  refine Throughout.imp (fun inner here => ?_) all
  cases inner with
  | closure => exact implies _ here
  | _ => trivial

theorem map_eq_self_iff {γ : Type} {f : γ → γ} {xs : List γ} :
    xs.map f = xs ↔ ∀ x ∈ xs, f x = x := by
  induction xs with
  | nil => simp
  | cons x xs ih => simp [ih]

/-- A value stays as it is if all identities in it are kept, and only then. -/
theorem renumber_eq_self_iff {value : Value} :
    value.renumber numbering = value ↔
      value.Identities fun identity => numbering.identity identity = identity := by
  induction value using induction_on_parts with
  | step value ih =>
    cases value with
    | list elements | vector elements | set elements =>
      have each := forall₂_congr ih
      rw [Identities, throughout_iff]
      simpa [IdentityHere, parts, map_eq_self_iff] using each
    | map entries =>
      have each (entry : Value × Value) (member : entry ∈ entries) :=
        and_congr (ih _ (mem_parts_map member).1) (ih _ (mem_parts_map member).2)
      rw [Identities, throughout_map, ← forall₂_congr each]
      simp [IdentityHere, renumberEntry, map_eq_self_iff, Prod.ext_iff]
    | closure identity function environment =>
      have each (binding : Variable × Value) (member : binding ∈ environment) :=
        ih binding.2 (List.mem_map_of_mem member)
      rw [Identities, throughout_closure, ← forall₂_congr each]
      simp [IdentityHere, Environment.renumber, map_eq_self_iff, Prod.ext_iff]
    | _ => exact iff_of_true rfl (throughout_iff.mpr ⟨trivial, List.forall_mem_nil _⟩)

end Value

/-- The identities of all closures in some bindings have some property. -/
def Environment.Identities (p : Nat → Prop) (environment : Environment) : Prop :=
  ∀ binding ∈ environment, binding.2.Identities p

/-- Bindings are unchanged exactly if no identity in them is moved. -/
theorem Environment.renumber_eq_self_iff {numbering : Renumbering} {environment : Environment} :
    environment.renumber numbering = environment ↔
      environment.Identities fun identity => numbering.identity identity = identity := by
  rw [Environment.renumber, Value.map_eq_self_iff]
  refine forall₂_congr fun binding _ => ?_
  rw [Prod.ext_iff, ← Value.renumber_eq_self_iff]
  exact and_iff_right rfl

end ScriptLisp
