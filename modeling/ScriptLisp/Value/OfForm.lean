import ScriptLisp.Form.Basic
import ScriptLisp.Value.Equality

/-!
Forms as values and back. Sets and maps of a form may hold equal elements or keys; as values they do
not. Procedures have no form.
-/

namespace ScriptLisp.Value

mutual

/-- The value a form denotes as data. -/
def ofForm : Form → Value
  | .nil => .nil
  | .boolean b => .boolean b
  | .integer i => .integer i
  | .rational n d => .rational n d
  | .decimal d => .decimal d
  | .string s => .string s
  | .symbol s => .symbol s
  | .keyword k => .keyword k
  | .list es => .list (ofForms es)
  | .vector es => .vector (ofForms es)
  | .set es => setOf (ofForms es)
  | .map entries => mapOf (ofEntries entries)

def ofForms : List Form → List Value
  | [] => []
  | f :: fs => ofForm f :: ofForms fs

def ofEntries : List (Form × Form) → List (Value × Value)
  | [] => []
  | (k, v) :: rest => (ofForm k, ofForm v) :: ofEntries rest

end

mutual

/-- The form of a value that holds no procedure. -/
def toForm? : Value → Option Form
  | .nil => some .nil
  | .boolean b => some (.boolean b)
  | .integer i => some (.integer i)
  | .rational n d => some (.rational n d)
  | .decimal d => some (.decimal d)
  | .string s => some (.string s)
  | .symbol s => some (.symbol s)
  | .keyword k => some (.keyword k)
  | .list es => return .list (← toForms? es)
  | .vector es => return .vector (← toForms? es)
  | .set es => return .set (← toForms? es)
  | .map entries => return .map (← toEntries? entries)
  | .builtin _ | .closure _ _ _ => none

def toForms? : List Value → Option (List Form)
  | [] => some []
  | v :: vs => return (← toForm? v) :: (← toForms? vs)

def toEntries? : List (Value × Value) → Option (List (Form × Form))
  | [] => some []
  | (k, v) :: rest => return (← toForm? k, ← toForm? v) :: (← toEntries? rest)

end

end ScriptLisp.Value
