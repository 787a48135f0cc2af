import ScriptLisp.Value.OfForm

/-!
Values inside values. A collection holds its elements, a map its keys and values, and a closure the
values bound where it was created. What a property of single values says about everything inside a
value is built up and taken apart along these parts.

* `Within`, `Throughout`: a value at any depth of another, and a property of all of them.
* `throughout_iff`: a property holds throughout a value if it holds of it and throughout its parts.
* `Visibly`: a property of all that can be seen in a value, closures being opaque.
* `induction_on_parts`: a part is smaller than the value that holds it.
-/

namespace ScriptLisp.Value

/-- The values that a value holds directly. -/
def parts : Value → List Value
  | .list elements | .vector elements | .set elements => elements
  | .map entries => entries.flatMap fun entry => [entry.1, entry.2]
  | .closure _ _ environment => environment.map (·.2)
  | _ => []

/-- `Within inner outer`: the value `inner` is `outer` or stands somewhere inside it. -/
inductive Within (inner : Value) : Value → Prop
  | self : Within inner inner
  | part {outer middle : Value} (member : middle ∈ outer.parts) (deeper : Within inner middle) :
      Within inner outer

theorem Within.trans {inner middle outer : Value} (first : Within inner middle)
    (second : Within middle outer) : Within inner outer := by
  induction second with
  | self => exact first
  | part member _ ih => exact .part member ih

/-- A property holds of a value and of everything inside it. -/
def Throughout (p : Value → Prop) (value : Value) : Prop :=
  ∀ inner, Within inner value → p inner

variable {p : Value → Prop}

/-- What holds throughout a value holds of it and throughout its parts. -/
theorem throughout_iff {value : Value} :
    Throughout p value ↔ p value ∧ ∀ part ∈ value.parts, Throughout p part := by
  constructor
  · intro all
    exact ⟨all value .self, fun part member inner deeper => all inner (.part member deeper)⟩
  · rintro ⟨here, below⟩ inner within
    cases within with
    | self => exact here
    | part member deeper => exact below _ member inner deeper

/-- What holds throughout a value holds throughout each part. -/
theorem Throughout.below {value part : Value} (all : Throughout p value)
    (member : part ∈ value.parts) : Throughout p part :=
  (throughout_iff.mp all).2 part member

theorem Throughout.imp {q : Value → Prop} {value : Value} (implies : ∀ inner, p inner → q inner)
    (all : Throughout p value) : Throughout q value :=
  fun inner within => implies inner (all inner within)

/-! ### Visible parts -/

/-- The values that can be seen in a value. What a closure holds cannot. -/
def visible : Value → List Value
  | .closure _ _ _ => []
  | value => value.parts

/-- Values can be taken apart along visible parts by induction on all parts. -/
theorem visible_subset_parts {value part : Value} (member : part ∈ value.visible) :
    part ∈ value.parts := by
  cases value with
  | closure => cases member
  | _ => exact member

/-- A property holds of a value and of everything that can be seen in it. -/
inductive Visibly (p : Value → Prop) : Value → Prop
  | mk {value : Value} (here : p value) (inside : ∀ part ∈ value.visible, Visibly p part) :
      Visibly p value

/-- What holds visibly of a value holds of it and visibly of its visible parts. -/
theorem visibly_iff {value : Value} :
    Visibly p value ↔ p value ∧ ∀ part ∈ value.visible, Visibly p part :=
  ⟨fun ⟨here, inside⟩ => ⟨here, inside⟩, fun ⟨here, inside⟩ => ⟨here, inside⟩⟩

theorem Visibly.here {value : Value} (all : Visibly p value) : p value :=
  (visibly_iff.mp all).1

/-- A value in which nothing else can be seen. -/
theorem Visibly.leaf {value : Value} (here : p value) (alone : value.visible = []) :
    Visibly p value :=
  ⟨here, alone ▸ List.forall_mem_nil _⟩

theorem Visibly.part {value part : Value} (all : Visibly p value)
    (member : part ∈ value.visible) : Visibly p part :=
  (visibly_iff.mp all).2 part member

/-! ### Entries and bindings -/

theorem mem_parts_map {entries : List (Value × Value)} {entry : Value × Value}
    (member : entry ∈ entries) :
    entry.1 ∈ parts (.map entries) ∧ entry.2 ∈ parts (.map entries) := by
  simp only [parts, List.mem_flatMap]
  constructor
  · exact ⟨entry, member, by simp⟩
  · exact ⟨entry, member, by simp⟩

/-- The parts of a map are its keys and its values. -/
theorem throughout_map {entries : List (Value × Value)} :
    Throughout p (.map entries) ↔
      p (.map entries) ∧ ∀ entry ∈ entries, Throughout p entry.1 ∧ Throughout p entry.2 := by
  rw [throughout_iff]
  simp only [parts, List.mem_flatMap]
  constructor
  · rintro ⟨here, below⟩
    refine ⟨here, fun entry member => ⟨?_, ?_⟩⟩
    · exact below entry.1 ⟨entry, member, by simp⟩
    · exact below entry.2 ⟨entry, member, by simp⟩
  · rintro ⟨here, below⟩
    refine ⟨here, ?_⟩
    rintro part ⟨entry, member, which⟩
    simp only [List.mem_cons, List.not_mem_nil, or_false] at which
    rcases which with rfl | rfl
    · exact (below entry member).1
    · exact (below entry member).2

/-- The parts of a closure are the values that its environment binds. -/
theorem throughout_closure {identity : Nat} {function : Lambda} {environment : Environment} :
    Throughout p (.closure identity function environment) ↔
      p (.closure identity function environment) ∧
        ∀ binding ∈ environment, Throughout p binding.2 := by
  rw [throughout_iff]
  simp only [parts, List.forall_mem_map]

/-! ### Sizes -/

/-- Parts are smaller, also those under entries and bindings. -/
theorem sizeOf_lt_of_mem_parts {value part : Value} (member : part ∈ value.parts) :
    sizeOf part < sizeOf value := by
  cases value with
  | list elements | vector elements | set elements =>
    have smaller : sizeOf part < sizeOf elements := List.sizeOf_lt_of_mem member
    simp
    omega
  | map entries =>
    obtain ⟨⟨key, item⟩, among, which⟩ := List.mem_flatMap.mp member
    have smaller := List.sizeOf_lt_of_mem among
    rw [Prod.mk.sizeOf_spec] at smaller
    have either : part = key ∨ part = item := by simpa using which
    rcases either with rfl | rfl
    · simp
      omega
    · simp
      omega
  | closure identity function environment =>
    obtain ⟨⟨name, bound⟩, among, rfl⟩ := List.mem_map.mp member
    have smaller := List.sizeOf_lt_of_mem among
    rw [Prod.mk.sizeOf_spec] at smaller
    simp
    omega
  | _ => cases member

/-- What passes from the parts of every value to the value holds of all values. -/
theorem induction_on_parts {motive : Value → Prop}
    (step : ∀ value : Value, (∀ part ∈ value.parts, motive part) → motive value) (value : Value) :
    motive value :=
  step value fun part _ => induction_on_parts step part
termination_by sizeOf value
decreasing_by exact sizeOf_lt_of_mem_parts ‹_›

/-- What holds throughout a value holds of what can be seen of it. -/
theorem Throughout.visibly {value : Value} (all : Throughout p value) : Visibly p value := by
  induction value using induction_on_parts with
  | step value ih =>
    refine ⟨all value .self, fun part member => ?_⟩
    have inside := visible_subset_parts member
    exact ih part inside (all.below inside)

/-! ### Adding to sets and maps -/

/-- Adding an element adds at most that one. -/
theorem mem_of_mem_adjoin {elements : List Value} {element value : Value}
    (member : value ∈ adjoin elements element) : value ∈ elements ∨ value = element := by
  rw [adjoin] at member
  split at member
  · exact .inl member
  · rwa [List.mem_append, List.mem_singleton] at member

/-- Setting an entry adds at most that one. -/
theorem mem_of_mem_insertEntry {entries : List (Value × Value)} {key value : Value}
    {entry : Value × Value} (member : entry ∈ insertEntry entries key value) :
    entry ∈ entries ∨ entry = (key, value) := by
  induction entries with
  | nil => exact .inr (List.mem_singleton.mp member)
  | cons first rest ih =>
    rw [insertEntry] at member
    split at member
    · rcases List.mem_cons.mp member with same | later
      · exact .inr same
      · exact .inl (List.mem_cons_of_mem _ later)
    · rcases List.mem_cons.mp member with same | later
      · exact .inl (List.mem_cons.mpr (.inl same))
      · exact (ih later).imp_left (List.mem_cons_of_mem _)

end ScriptLisp.Value
