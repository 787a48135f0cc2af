import ScriptLisp.Form.Basic
import ScriptLisp.Node.Kind
import Mathlib.Data.List.Nodup

/-!
Tables of canonical literals. Each kind of literal has a column of its own, in which a literal
stands once; taking a literal adds it at the end of its column if it is new, and changes nothing
else. So a place in a column belongs to one literal from the first use on, and a literal to one
place.

* `Literal`: what a node with an instance stands for, and the form that it was written as.
* `entries`, `Holds`: what the tables hold.
* `Extends`, `Canonical`: tables only grow, and hold no literal twice.
* `Gives`: what taking a literal does, for each kind.
* `Repeats`: taking it again from later tables.
-/

namespace ScriptLisp

/-! ### Names -/

namespace Name

/-- What does not stand before the first slash starts with it. -/
theorem dropWhile_slash {cs : List Char} (parted : (cs.dropWhile (· != '/')).drop 1 ≠ []) :
    cs.dropWhile (· != '/') = '/' :: (cs.dropWhile (· != '/')).drop 1 := by
  cases rest : cs.dropWhile (· != '/') with
  | nil => simp [rest] at parted
  | cons first others =>
    have stops := List.head?_dropWhile_not (· != '/') cs
    rw [rest] at stops
    have slash : first = '/' := by simpa using stops
    rw [slash, List.drop_one, List.tail_cons]

/-- A name is written as it was read. -/
theorem display_parse (token : String) : (parse token).display = token := by
  unfold parse
  dsimp only
  split
  · rfl
  · rename_i parted
    rw [Bool.or_eq_true, not_or, List.isEmpty_iff, List.isEmpty_iff] at parted
    apply String.toList_inj.mp
    calc (String.ofList (token.toList.takeWhile (· != '/')) ++ "/" ++
          String.ofList ((token.toList.dropWhile (· != '/')).drop 1)).toList
      _ = token.toList.takeWhile (· != '/') ++
          '/' :: (token.toList.dropWhile (· != '/')).drop 1 := by simp
      _ = token.toList := by rw [← dropWhile_slash parted.2, List.takeWhile_append_dropWhile]

/-- Different texts are different names, so keywords are the same exactly if their names are. -/
theorem parse_injective : Function.Injective parse :=
  Function.LeftInverse.injective display_parse

end Name

/-! ### Literals -/

inductive Literal where
  | nil
  | boolean (value : Bool)
  | integer (value : Int64)
  | string (value : String)
  | keyword (name : Name)
  | symbol (name : Name)
deriving DecidableEq, Repr

namespace Literal

/-- The kind of the nodes that stand for a literal. -/
def kind : Literal → NodeKind
  | nil => .nil
  | boolean _ => .boolean
  | integer _ => .integer
  | string _ => .string
  | keyword _ => .keyword
  | symbol _ => .symbol

end Literal

/-- The literal that a form is, with its name taken apart. -/
def Form.literal? : Form → Option Literal
  | .nil => some .nil
  | .boolean value => some (.boolean value)
  | .integer value => some (.integer value)
  | .string value => some (.string value)
  | .keyword text => some (.keyword (Name.parse text))
  | .symbol text => some (.symbol (Name.parse text))
  | _ => none

/-- A literal is written in one way only. -/
theorem Form.eq_of_literal? {form other : Form} {literal : Literal}
    (first : form.literal? = some literal) (second : other.literal? = some literal) :
    form = other := by
  cases literal with
  | nil | boolean value | integer value | string value =>
    cases form <;> cases first
    cases other <;> cases second
    rfl
  | keyword name | symbol name =>
    cases form <;> cases first
    cases other <;> simp only [literal?, Option.some.injEq, reduceCtorEq] at second
    injection second with same
    rw [Name.parse_injective same]

/-- The instance that a node holds: its place in its column, and the literal. -/
def Node.instance? : Node → Option (Nat × Literal)
  | .nil interned => some (interned.index, .nil)
  | .boolean interned => some (interned.index, .boolean interned.value)
  | .integer interned => some (interned.index, .integer interned.value)
  | .string interned => some (interned.index, .string interned.value)
  | .keyword interned => some (interned.index, .keyword interned.value)
  | .symbol interned => some (interned.index, .symbol interned.value)
  | _ => none

/-! ### One column -/

namespace Interner

variable {α : Type} [DecidableEq α] (table : Interner α) (value : α)

/-- An instance has the value that was asked for. -/
theorem intern_value : (table.intern value).1.value = value := by
  unfold intern
  split <;> rfl

/-- Values that are there keep their places. -/
theorem intern_prefix : table.values <+: (table.intern value).2.values := by
  unfold intern
  split
  · exact List.prefix_refl _
  · exact List.prefix_append _ _

/-- The value is found in its place. -/
theorem intern_holds :
    (table.intern value).2.values[(table.intern value).1.index]? = some value := by
  unfold intern
  split
  · rename_i index found
    obtain ⟨inside, same, _⟩ := List.idxOf?_eq_some_iff.mp found
    exact List.getElem?_eq_some_iff.mpr ⟨inside, same⟩
  · exact List.getElem?_concat_length

/-- The instance is the first place of the value. -/
theorem intern_first :
    (table.intern value).2.values.idxOf? value = some (table.intern value).1.index := by
  unfold intern
  split
  · assumption
  · rename_i unknown
    rw [List.idxOf?, List.findIdx?_append, ← List.idxOf?, unknown]
    simp

/-- A later table hands out the same instance again. -/
theorem intern_of_prefix {later : Interner α}
    (grown : (table.intern value).2.values <+: later.values) :
    later.intern value = ((table.intern value).1, later) := by
  obtain ⟨added, whole⟩ := grown
  have found : later.values.idxOf? value = some (table.intern value).1.index := by
    rw [← whole, List.idxOf?, List.findIdx?_append, ← List.idxOf?, intern_first]
    rfl
  rw [intern, found]
  exact congrArg (·, later) (congrArg (Interned.mk _) (intern_value table value).symm)

/-- No value is added a second time. -/
theorem intern_nodup (once : table.values.Nodup) : (table.intern value).2.values.Nodup := by
  unfold intern
  split
  · exact once
  · rename_i unknown
    rw [List.idxOf?_eq_none_iff] at unknown
    rw [← List.concat_eq_append]
    exact once.concat unknown

end Interner

/-! ### All columns -/

namespace InternTable

/-- The literals of one kind in the order of their first use. -/
def entries (table : InternTable) : NodeKind → List Literal
  | .nil => table.nils.values.map fun _ => .nil
  | .boolean => table.booleans.values.map .boolean
  | .integer => table.integers.values.map .integer
  | .string => table.strings.values.map .string
  | .keyword => table.keywords.values.map .keyword
  | .symbol => table.symbols.values.map .symbol
  | _ => []

/-- A literal stands at a place of its column. -/
def Holds (table : InternTable) (index : Nat) (literal : Literal) : Prop :=
  (table.entries literal.kind)[index]? = some literal

/-- What was in the tables stays where it is. -/
def Extends (table later : InternTable) : Prop :=
  ∀ kind, table.entries kind <+: later.entries kind

/-- No literal stands in the tables twice. -/
def Canonical (table : InternTable) : Prop :=
  ∀ kind, (table.entries kind).Nodup

variable {table later last : InternTable}

theorem Extends.refl (table : InternTable) : table.Extends table :=
  fun _ => List.prefix_refl _

theorem Extends.trans (first : table.Extends later) (second : later.Extends last) :
    table.Extends last :=
  fun kind => (first kind).trans (second kind)

/-- Instances outlive later literals. -/
theorem Holds.extended {index : Nat} {literal : Literal} (holds : table.Holds index literal)
    (grows : table.Extends later) : later.Holds index literal := by
  obtain ⟨added, same⟩ := grows literal.kind
  obtain ⟨inside, _⟩ := List.getElem?_eq_some_iff.mp holds
  unfold Holds
  rw [← same, List.getElem?_append_left inside]
  exact holds

/-- Before the first literal there is nothing to be held twice. -/
theorem canonical_empty : InternTable.empty.Canonical := by
  intro kind
  cases kind <;> exact List.nodup_nil

/-- In tables that hold no literal twice, places and literals determine each other. -/
theorem Canonical.same_place_iff (once : table.Canonical) {index place : Nat}
    {literal other : Literal} (first : table.Holds index literal)
    (second : table.Holds place other) :
    (literal.kind, index) = (other.kind, place) ↔ literal = other := by
  constructor
  · rintro same
    obtain ⟨kinds, rfl⟩ := Prod.mk.inj same
    rw [Holds, kinds] at first
    exact Option.some.inj (first.symm.trans second)
  · rintro rfl
    obtain ⟨inside, here⟩ := List.getElem?_eq_some_iff.mp first
    obtain ⟨insideToo, there⟩ := List.getElem?_eq_some_iff.mp second
    rw [(once literal.kind).getElem_inj_iff.mp (here.trans there.symm)]

/-! ### Taking a literal -/

/-- A value is given with its place, in tables that extend the ones before. -/
structure Gives {α : Type} (table : InternTable) (wrap : α → Literal) (asked : α)
    (given : Interned α × InternTable) : Prop where
  value : given.1.value = asked
  holds : given.2.Holds given.1.index (wrap asked)
  grows : table.Extends given.2
  canonical : table.Canonical → given.2.Canonical

/-- Taking a value that has a column of its own. -/
theorem Gives.column {α : Type} [DecidableEq α] {wrap : α → Literal} {asked : α}
    {column : Interner α} {given : Interned α × InternTable}
    (injective : Function.Injective wrap)
    (before : table.entries (wrap asked).kind = column.values.map wrap)
    (place : given.1 = (column.intern asked).1)
    (after : given.2.entries (wrap asked).kind = (column.intern asked).2.values.map wrap)
    (others : ∀ kind, kind ≠ (wrap asked).kind → given.2.entries kind = table.entries kind) :
    table.Gives wrap asked given where
  value := by rw [place, Interner.intern_value]
  holds := by rw [Holds, after, place, List.getElem?_map, Interner.intern_holds, Option.map_some]
  grows := by
    intro kind
    by_cases own : kind = (wrap asked).kind
    · rw [own, before, after]
      exact (column.intern_prefix asked).map wrap
    · exact (others kind own).symm ▸ List.prefix_refl _
  canonical := by
    intro once kind
    by_cases own : kind = (wrap asked).kind
    · have distinct := once kind
      rw [own, before] at distinct
      rw [own, after]
      exact (column.intern_nodup asked distinct.of_map).map injective
    · rw [others kind own]
      exact once kind

variable (table)

theorem gives_nil : table.Gives (fun _ => .nil) () table.nil :=
  .column (fun _ _ _ => rfl) rfl rfl rfl fun kind different => by
    cases kind with
    | nil => exact absurd rfl different
    | _ => rfl

theorem gives_boolean (asked : Bool) : table.Gives .boolean asked (table.boolean asked) :=
  .column (fun _ _ => Literal.boolean.inj) rfl rfl rfl fun kind different => by
    cases kind with
    | boolean => exact absurd rfl different
    | _ => rfl

theorem gives_integer (asked : Int64) : table.Gives .integer asked (table.integer asked) :=
  .column (fun _ _ => Literal.integer.inj) rfl rfl rfl fun kind different => by
    cases kind with
    | integer => exact absurd rfl different
    | _ => rfl

theorem gives_string (asked : String) : table.Gives .string asked (table.string asked) :=
  .column (fun _ _ => Literal.string.inj) rfl rfl rfl fun kind different => by
    cases kind with
    | string => exact absurd rfl different
    | _ => rfl

theorem gives_keyword (asked : Name) : table.Gives .keyword asked (table.keyword asked) :=
  .column (fun _ _ => Literal.keyword.inj) rfl rfl rfl fun kind different => by
    cases kind with
    | keyword => exact absurd rfl different
    | _ => rfl

theorem gives_symbol (asked : Name) : table.Gives .symbol asked (table.symbol asked) :=
  .column (fun _ _ => Literal.symbol.inj) rfl rfl rfl fun kind different => by
    cases kind with
    | symbol => exact absurd rfl different
    | _ => rfl

/-! ### Taking it again -/

/-- What was taken once is taken again from all later tables, and they stay as they are. -/
def Repeats {α : Type} (take : InternTable → Interned α × InternTable) : Prop :=
  ∀ table later : InternTable, (take table).2.Extends later →
    take later = ((take table).1, later)

/-- Taking a value that has a column of its own. -/
theorem Repeats.column {α : Type} [DecidableEq α] {wrap : α → Literal} {asked : α}
    (kind : NodeKind) (injective : Function.Injective wrap) (column : InternTable → Interner α)
    (put : InternTable → Interner α → InternTable)
    (entries : ∀ table : InternTable, table.entries kind = (column table).values.map wrap)
    (column_put : ∀ table values, column (put table values) = values)
    (put_column : ∀ table, put table (column table) = table) :
    Repeats fun table =>
      (((column table).intern asked).1, put table ((column table).intern asked).2) := by
  intro table later grown
  have own := grown kind
  rw [entries, entries, column_put] at own
  obtain ⟨values, among, same⟩ := List.prefix_map_iff.mp own
  rw [← (List.map_inj_right fun _ _ => @injective _ _).mp same] at among
  dsimp only
  rw [Interner.intern_of_prefix (column table) asked among, put_column]

theorem repeats_nil : Repeats (·.nil) :=
  .column .nil (fun _ _ _ => rfl) (·.nils) (fun table nils => { table with nils })
    (fun _ => rfl) (fun _ _ => rfl) fun _ => rfl

theorem repeats_boolean (asked : Bool) : Repeats (·.boolean asked) :=
  .column .boolean (fun _ _ => Literal.boolean.inj) (·.booleans)
    (fun table booleans => { table with booleans }) (fun _ => rfl) (fun _ _ => rfl) fun _ => rfl

theorem repeats_integer (asked : Int64) : Repeats (·.integer asked) :=
  .column .integer (fun _ _ => Literal.integer.inj) (·.integers)
    (fun table integers => { table with integers }) (fun _ => rfl) (fun _ _ => rfl) fun _ => rfl

theorem repeats_string (asked : String) : Repeats (·.string asked) :=
  .column .string (fun _ _ => Literal.string.inj) (·.strings)
    (fun table strings => { table with strings }) (fun _ => rfl) (fun _ _ => rfl) fun _ => rfl

theorem repeats_keyword (asked : Name) : Repeats (·.keyword asked) :=
  .column .keyword (fun _ _ => Literal.keyword.inj) (·.keywords)
    (fun table keywords => { table with keywords }) (fun _ => rfl) (fun _ _ => rfl) fun _ => rfl

theorem repeats_symbol (asked : Name) : Repeats (·.symbol asked) :=
  .column .symbol (fun _ _ => Literal.symbol.inj) (·.symbols)
    (fun table symbols => { table with symbols }) (fun _ => rfl) (fun _ _ => rfl) fun _ => rfl

end InternTable

end ScriptLisp
