import ScriptLisp.Proofs.Text.Cut

/-!
Styles of data. A target writes atoms in its own way and collections as sequences in brackets of
their kind. If every kind of form is known by how its text starts, and the texts of atoms are cut
off from what follows, then whole forms are: the text of a form determines it, at every depth.

* `DataStyle`, `chars`: the parts of a style, and the text of a form in it.
* `DataStyle.Lawful`: what makes texts of a style such that they can be taken apart.
* `Lawful.cuts`, `Lawful.text_inj`: the text of a form without decimals determines the form.
-/

namespace ScriptLisp

/-- No decimal occurs in a form. -/
def Form.DecimalFree (form : Form) : Prop :=
  ∀ d, ¬ Within parts (.decimal d) form

theorem Form.DecimalFree.part {form part : Form} (free : form.DecimalFree)
    (member : part ∈ form.parts) : part.DecimalFree :=
  fun d within => free d (.part member within)

/-- What stands before and after the elements of a collection; the end starts with a mark. -/
structure Brackets where
  opening : List Char
  mark : Char
  more : List Char

/-- Elements in brackets. -/
def Brackets.around (brackets : Brackets) (texts : List (List Char)) : List Char :=
  brackets.opening ++ sequence (brackets.mark :: brackets.more) texts

/-- Texts with commas between them, in brackets. -/
theorem Brackets.toList_around {brackets : Brackets} {opening closing : String}
    (opens : opening.toList = brackets.opening)
    (closes : closing.toList = brackets.mark :: brackets.more) (texts : List String) :
    (opening ++ Target.commas texts ++ closing).toList =
      brackets.around (texts.map (·.toList)) := by
  rw [String.toList_append, String.toList_append, List.append_assoc, closes, toList_commas, opens]
  rfl

/-- How a target writes data, and how the kind of a form is read from the start of its text. -/
structure DataStyle where
  nil : List Char
  rational : Int64 × Int64 → List Char
  string : String → List Char
  keyword : String → List Char
  symbol : String → List Char
  list : Brackets
  vector : Brackets
  set : Brackets
  map : Brackets
  arrow : List Char
  kindAt? : List Char → Option String

namespace DataStyle

def chars (style : DataStyle) : Form → List Char
  | .nil => style.nil
  | .boolean b => if b then "true".toList else "false".toList
  | .integer i => (Target.integerText i).toList
  | .rational n d => style.rational (n, d)
  | .decimal d => (Target.decimalText d).toList
  | .string s => style.string s
  | .keyword k => style.keyword k
  | .symbol s => style.symbol s
  | .list forms => style.list.around (forms.map style.chars)
  | .vector forms => style.vector.around (forms.map style.chars)
  | .set forms => style.set.around (forms.map style.chars)
  | .map entries => style.map.around
      (entries.map fun entry => style.chars entry.1 ++ (style.arrow ++ style.chars entry.2))
termination_by form => sizeOf form
decreasing_by
  · exact Form.sizeOf_lt_of_mem_parts (by assumption)
  · exact Form.sizeOf_lt_of_mem_parts (by assumption)
  · exact Form.sizeOf_lt_of_mem_parts (by assumption)
  · exact Form.sizeOf_lt_of_mem_parts (Form.mem_parts_map ‹_›).1
  · exact Form.sizeOf_lt_of_mem_parts (Form.mem_parts_map ‹_›).2

/-- The text of a form, as a string. -/
def text (style : DataStyle) (form : Form) : String :=
  String.ofList (style.chars form)

theorem toList_text (style : DataStyle) (form : Form) :
    (style.text form).toList = style.chars form :=
  String.toList_ofList

/-- The text of a collection is that of its elements in brackets. -/
theorem text_around {style : DataStyle} {form : Form} {forms : List Form} {brackets : Brackets}
    {opening closing : String}
    (written : style.chars form = brackets.around (forms.map style.chars))
    (opens : opening.toList = brackets.opening)
    (closes : closing.toList = brackets.mark :: brackets.more) :
    style.text form = opening ++ Target.commas (forms.map style.text) ++ closing := by
  apply String.toList_inj.mp
  rw [toList_text, written, brackets.toList_around opens closes, List.map_map]
  simp only [Function.comp_def, toList_text]

theorem cuts_boolean (b : Bool) :
    Cuts (fun b : Bool => if b then "true".toList else "false".toList) (fun _ => True) b := by
  intro c _ rest others _ _ same
  cases b <;> cases c <;> simp_all

/-- An end of a collection is no start of a form, and ends what stands before it. -/
structure Closes (style : DataStyle) (brackets : Brackets) : Prop where
  bare : goesOn brackets.mark = false
  noComma : brackets.mark ≠ ','
  noKind : ∀ rest, style.kindAt? (brackets.mark :: rest) = none

/-- Kinds are read from texts, atoms are cut off, and brackets close. -/
structure Lawful (style : DataStyle) : Prop where
  kind : ∀ {form : Form}, form.DecimalFree → ∀ {rest : List Char}, Stopped rest →
    style.kindAt? (style.chars form ++ rest) = some form.kind
  rational : ∀ ratio, Cuts style.rational (fun _ => True) ratio
  string : ∀ text, Cuts style.string (fun _ => True) text
  keyword : ∀ text, Cuts style.keyword (fun _ => True) text
  symbol : ∀ text, Cuts style.symbol (fun _ => True) text
  list : style.Closes style.list
  vector : style.Closes style.vector
  set : style.Closes style.set
  map : style.Closes style.map
  arrow : ∀ rest, Stopped (style.arrow ++ rest)

namespace Lawful

variable {style : DataStyle} (lawful : style.Lawful)

include lawful

/-- A form of some kind is cut off if what it is built from is. -/
theorem built {α : Type} (build : α → Form) {write : α → List Char} {among : α → Prop} (a : α)
    (free : (build a).DecimalFree)
    (shape : ∀ other : Form, other.kind = (build a).kind → ∃ b, other = build b)
    (written : ∀ b, style.chars (build b) = write b)
    (allowed : ∀ b, (build b).DecimalFree → among b) (cuts : Cuts write among a) :
    Cuts style.chars Form.DecimalFree (build a) := by
  intro other freeToo rest left stopped stoppedToo same
  have kinds : other.kind = (build a).kind := by
    have kind := lawful.kind free stopped
    rw [same, lawful.kind freeToo stoppedToo] at kind
    exact Option.some.inj kind
  obtain ⟨b, rfl⟩ := shape other kinds
  rw [written, written] at same
  obtain ⟨rfl, follows⟩ := cuts b (allowed b freeToo) rest left stopped stoppedToo same
  exact ⟨rfl, follows⟩

omit lawful in
/-- Elements in brackets are cut off if each element is and starts as some form does. -/
theorem around_cuts {α : Type} {write : α → List Char} {among : α → Prop} {brackets : Brackets}
    (closes : style.Closes brackets)
    (opens : ∀ a, among a → ∀ rest, Stopped rest →
      ∃ kind, style.kindAt? (write a ++ rest) = some kind)
    {items : List α} (each : ∀ a ∈ items, among a ∧ Cuts write among a) :
    Cuts (fun items => brackets.around (items.map write)) (fun items => ∀ a ∈ items, among a)
      items := by
  intro others allowed rest left _ _ same
  simp only [Brackets.around, List.append_assoc, List.append_cancel_left_eq] at same
  refine sequence_cuts closes.bare closes.noComma (fun a allowed rest left stopped closed => ?_)
    each allowed same
  obtain ⟨kind, starts⟩ := opens a allowed rest stopped
  rw [closed, closes.noKind] at starts
  cases starts

theorem forms_cut {brackets : Brackets} (closes : style.Closes brackets) {forms : List Form}
    (each : ∀ form ∈ forms, form.DecimalFree ∧ Cuts style.chars Form.DecimalFree form) :
    Cuts (fun forms => brackets.around (forms.map style.chars))
      (fun forms => ∀ form ∈ forms, form.DecimalFree) forms := by
  refine around_cuts closes (fun form free rest stopped => ?_) each
  exact ⟨form.kind, lawful.kind free stopped⟩

theorem entries_cut {entries : List (Form × Form)}
    (each : ∀ entry ∈ entries, (entry.1.DecimalFree ∧ entry.2.DecimalFree) ∧
      Cuts style.chars Form.DecimalFree entry.1 ∧ Cuts style.chars Form.DecimalFree entry.2) :
    Cuts (fun entries : List (Form × Form) => style.map.around
        (entries.map fun entry => style.chars entry.1 ++ (style.arrow ++ style.chars entry.2)))
      (fun entries => ∀ entry ∈ entries, entry.1.DecimalFree ∧ entry.2.DecimalFree) entries := by
  refine around_cuts lawful.map (fun entry free rest _ => ⟨entry.1.kind, ?_⟩) fun entry member => ?_
  · rw [List.append_assoc, List.append_assoc]
    exact lawful.kind free.1 (lawful.arrow _)
  · obtain ⟨free, key, item⟩ := each entry member
    exact ⟨free, Cuts.pair style.arrow lawful.arrow key item⟩

/-- The text of a form without decimals determines the form and where it ends. -/
theorem cuts (form : Form) (free : form.DecimalFree) :
    Cuts style.chars Form.DecimalFree form := by
  induction form using Form.induction_on_parts with
  | step form ih =>
    -- Each kind has its own start, so only forms of the same kind have to be told apart.
    have inside : ∀ part ∈ form.parts,
        part.DecimalFree ∧ Cuts style.chars Form.DecimalFree part :=
      fun part member => ⟨free.part member, ih part member (free.part member)⟩
    cases form with
    | nil =>
      have apart : Cuts (fun _ : Unit => style.nil) (fun _ => True) () :=
        fun _ _ _ _ _ _ same => ⟨rfl, List.append_cancel_left same⟩
      refine lawful.built (fun _ : Unit => .nil) () free (fun other kind => ?_)
        (fun _ => by rw [chars]) (fun _ _ => trivial) apart
      cases other <;> simp_all [Form.kind]
    | boolean b =>
      refine lawful.built .boolean b free (fun other kind => ?_) (fun _ => by rw [chars])
        (fun _ _ => trivial) (cuts_boolean b)
      cases other <;> simp_all [Form.kind]
    | integer i =>
      refine lawful.built .integer i free (fun other kind => ?_) (fun _ => by rw [chars])
        (fun _ _ => trivial) (cuts_integerText i)
      cases other <;> simp_all [Form.kind]
    | rational n d =>
      refine lawful.built (fun ratio : Int64 × Int64 => .rational ratio.1 ratio.2) (n, d)
        free (fun other kind => ?_) (fun _ => by rw [chars]) (fun _ _ => trivial)
        (lawful.rational (n, d))
      cases other <;> simp_all [Form.kind]
    | decimal d => exact absurd .self (free d)
    | string s =>
      refine lawful.built .string s free (fun other kind => ?_) (fun _ => by rw [chars])
        (fun _ _ => trivial) (lawful.string s)
      cases other <;> simp_all [Form.kind]
    | keyword k =>
      refine lawful.built .keyword k free (fun other kind => ?_) (fun _ => by rw [chars])
        (fun _ _ => trivial) (lawful.keyword k)
      cases other <;> simp_all [Form.kind]
    | symbol s =>
      refine lawful.built .symbol s free (fun other kind => ?_) (fun _ => by rw [chars])
        (fun _ _ => trivial) (lawful.symbol s)
      cases other <;> simp_all [Form.kind]
    | list forms =>
      refine lawful.built .list forms free (fun other kind => ?_) (fun _ => by rw [chars])
        (fun _ free part => free.part) (lawful.forms_cut lawful.list inside)
      cases other <;> simp_all [Form.kind]
    | vector forms =>
      refine lawful.built .vector forms free (fun other kind => ?_) (fun _ => by rw [chars])
        (fun _ free part => free.part) (lawful.forms_cut lawful.vector inside)
      cases other <;> simp_all [Form.kind]
    | set forms =>
      refine lawful.built .set forms free (fun other kind => ?_) (fun _ => by rw [chars])
        (fun _ free part => free.part) (lawful.forms_cut lawful.set inside)
      cases other <;> simp_all [Form.kind]
    | map entries =>
      have each : ∀ entry ∈ entries, (entry.1.DecimalFree ∧ entry.2.DecimalFree) ∧
          Cuts style.chars Form.DecimalFree entry.1 ∧
            Cuts style.chars Form.DecimalFree entry.2 := by
        intro entry member
        obtain ⟨key, item⟩ := Form.mem_parts_map member
        exact ⟨⟨free.part key, free.part item⟩, (inside _ key).2, (inside _ item).2⟩
      refine lawful.built .map entries free (fun other kind => ?_) (fun _ => by rw [chars])
        (fun _ free entry member => ?_) (lawful.entries_cut each)
      · cases other <;> simp_all [Form.kind]
      · obtain ⟨key, item⟩ := Form.mem_parts_map member
        exact ⟨free.part key, free.part item⟩

/-- Forms without decimals have different texts. -/
theorem text_inj {form other : Form} (free : form.DecimalFree) (freeToo : other.DecimalFree) :
    style.text form = style.text other ↔ form = other := by
  constructor
  · intro same
    have texts := congrArg String.toList same
    rw [toList_text, toList_text] at texts
    exact (lawful.cuts form free other freeToo [] [] .nil .nil (by rw [texts])).1
  · rintro rfl
    rfl

end Lawful

end DataStyle

end ScriptLisp
