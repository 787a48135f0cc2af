/-!
Names as written in source, with an optional qualifier before a slash (`ws.core/list`), and
canonical instances of literals. The first use of a value gives it an instance, and every later use
of an equal value in the same table gives the same instance again. Tables only grow.
-/

namespace ScriptLisp

/-! ### Names -/

/-- A name with the namespace it is looked up in, if one is given. -/
structure Name where
  qualifier : Option String
  base : String
deriving DecidableEq, Repr, Inhabited

namespace Name

def unqualified (base : String) : Name :=
  ⟨none, base⟩

/-- Takes a token apart at its first slash. A slash at either end belongs to the name, so that the
division operator is a name of its own. -/
def parse (token : String) : Name :=
  let before := token.toList.takeWhile (· != '/')
  let after := (token.toList.dropWhile (· != '/')).drop 1
  if before.isEmpty || after.isEmpty then unqualified token
  else ⟨some (String.ofList before), String.ofList after⟩

def display (name : Name) : String :=
  match name.qualifier with
  | some qualifier => qualifier ++ "/" ++ name.base
  | none => name.base

end Name

/-! ### Instances -/

/-- An instance of a value: its place in the table that handed it out, and the value. -/
structure Interned (α : Type) where
  index : Nat
  value : α
deriving DecidableEq, Repr

/-- The values with an instance, in the order of their first use. -/
structure Interner (α : Type) where
  values : List α
deriving Repr

namespace Interner

/-- The table that knows no value. -/
def empty {α : Type} : Interner α :=
  ⟨[]⟩

/-- The instance of a value, and the table that knows it. -/
def intern {α : Type} [DecidableEq α] (table : Interner α) (value : α) : Interned α × Interner α :=
  match table.values.idxOf? value with
  | some index => (⟨index, value⟩, table)
  | none => (⟨table.values.length, value⟩, ⟨table.values ++ [value]⟩)

end Interner

/-- The instances of all kinds of literals that have one. -/
structure InternTable where
  nils : Interner Unit := .empty
  booleans : Interner Bool := .empty
  integers : Interner Int64 := .empty
  strings : Interner String := .empty
  keywords : Interner Name := .empty
  symbols : Interner Name := .empty
deriving Repr

namespace InternTable

/-- The tables at the start of a session. -/
def empty : InternTable := {}

def nil (table : InternTable) : Interned Unit × InternTable :=
  let (interned, nils) := table.nils.intern ()
  (interned, { table with nils })

def boolean (table : InternTable) (value : Bool) : Interned Bool × InternTable :=
  let (interned, booleans) := table.booleans.intern value
  (interned, { table with booleans })

def integer (table : InternTable) (value : Int64) : Interned Int64 × InternTable :=
  let (interned, integers) := table.integers.intern value
  (interned, { table with integers })

def string (table : InternTable) (value : String) : Interned String × InternTable :=
  let (interned, strings) := table.strings.intern value
  (interned, { table with strings })

def keyword (table : InternTable) (value : Name) : Interned Name × InternTable :=
  let (interned, keywords) := table.keywords.intern value
  (interned, { table with keywords })

def symbol (table : InternTable) (value : Name) : Interned Name × InternTable :=
  let (interned, symbols) := table.symbols.intern value
  (interned, { table with symbols })

end InternTable

end ScriptLisp
