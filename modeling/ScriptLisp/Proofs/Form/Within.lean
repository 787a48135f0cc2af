import ScriptLisp.Form.Basic

/-!
Forms inside forms. A list, a vector and a set hold their elements, and a map its keys and values.
Some questions are about all that a form holds and some only about a part of it, such as the part
that is code; so depth is counted along any choice of parts.

* `parts`: everything that a form holds directly.
* `Within`, `forall_within_iff`: a form at any depth of another, along chosen parts, and a property
  of all of them.
* `sizeOf_lt_of_mem_parts`, `induction_on_parts`: a part is smaller than the form that holds it.
-/

namespace ScriptLisp.Form

/-- The forms that a form holds directly. -/
def parts : Form → List Form
  | .list elements | .vector elements | .set elements => elements
  | .map entries => entries.flatMap fun entry => [entry.1, entry.2]
  | _ => []

/-- `Within chosen inner outer`: the form `inner` is `outer`, or stands inside a chosen part of
it. -/
inductive Within (chosen : Form → List Form) (inner : Form) : Form → Prop
  | self : Within chosen inner inner
  | part {outer middle : Form} (member : middle ∈ chosen outer)
      (deeper : Within chosen inner middle) : Within chosen inner outer

theorem Within.tail {chosen : Form → List Form} {inner middle outer : Form}
    (within : Within chosen middle outer) (member : inner ∈ chosen middle) :
    Within chosen inner outer := by
  induction within with
  | self => exact .part member .self
  | part first _ ih => exact .part first ih

/-- A property holds of everything inside a form if it holds of the form and of everything inside
its chosen parts. -/
theorem forall_within_iff {chosen : Form → List Form} {p : Form → Prop} {form : Form} :
    (∀ inner, Within chosen inner form → p inner) ↔
      p form ∧ ∀ part ∈ chosen form, ∀ inner, Within chosen inner part → p inner := by
  constructor
  · intro all
    exact ⟨all form .self, fun part member inner deeper => all inner (.part member deeper)⟩
  · rintro ⟨here, below⟩ inner within
    cases within with
    | self => exact here
    | part member deeper => exact below _ member inner deeper

theorem mem_parts_map {entries : List (Form × Form)} {entry : Form × Form}
    (member : entry ∈ entries) :
    entry.1 ∈ parts (.map entries) ∧ entry.2 ∈ parts (.map entries) := by
  simp only [parts, List.mem_flatMap]
  constructor
  · exact ⟨entry, member, by simp⟩
  · exact ⟨entry, member, by simp⟩

/-! ### Sizes -/

theorem sizeOf_lt_of_mem_parts {form part : Form} (member : part ∈ form.parts) :
    sizeOf part < sizeOf form := by
  cases form with
  | list elements | vector elements | set elements =>
    have smaller : sizeOf part < sizeOf elements := List.sizeOf_lt_of_mem member
    simp
    omega
  | map entries =>
    obtain ⟨⟨key, item⟩, within, same⟩ := List.mem_flatMap.mp member
    have smaller := List.sizeOf_lt_of_mem within
    rw [Prod.mk.sizeOf_spec] at smaller
    have either : part = key ∨ part = item := by simpa using same
    rcases either with rfl | rfl
    · simp
      omega
    · simp
      omega
  | _ => cases member

/-- What passes from the parts of every form to the form holds of all forms. -/
theorem induction_on_parts {motive : Form → Prop}
    (step : ∀ form : Form, (∀ part ∈ form.parts, motive part) → motive form) (form : Form) :
    motive form :=
  step form fun part _ => induction_on_parts step part
termination_by sizeOf form
decreasing_by exact sizeOf_lt_of_mem_parts ‹_›

end ScriptLisp.Form
