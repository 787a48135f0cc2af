import ScriptLisp.Session.Basic

/-!
Literals. As code, symbols are references and the elements of collections are code again; in a
quotation, symbols and lists are data at every depth.
-/

namespace ScriptLisp.Analysis

open Session

/-- A way to understand forms as code. -/
abbrev Step := Form → InSession Node

/-- The literal `nil`, also where a form leaves a part out. -/
def nil : InSession Node :=
  return .nil (← intern (·.nil))

/-- Understands forms in order. -/
def inOrder (step : Step) : List Form → InSession (List Node)
  | [] => return []
  | form :: rest => do
    let node ← step form
    return node :: (← inOrder step rest)

/-- Understands keys and values in order. -/
def entriesInOrder (step : Step) : List (Form × Form) → InSession (List (Node × Node))
  | [] => return []
  | (key, value) :: rest => do
    let key ← step key
    let value ← step value
    return (key, value) :: (← entriesInOrder step rest)

/-- A form that is no list, as code. -/
def literal (step : Step) : Form → InSession Node
  | .nil => nil
  | .boolean b => return .boolean (← intern (·.boolean b))
  | .integer i => return .integer (← intern (·.integer i))
  | .rational n d => return .rational n d
  | .decimal d => return .decimal d
  | .string s => return .string (← intern (·.string s))
  | .keyword k => return .keyword (← intern (·.keyword (Name.parse k)))
  | .symbol s => return .reference (← variableOf s)
  | .list elements => return .list (← inOrder step elements)
  | .vector elements => return .vector (← inOrder step elements)
  | .set elements => return .set (← inOrder step elements)
  | .map entries => return .map (← entriesInOrder step entries)

mutual

/-- A form as data. -/
def quoted : Form → InSession Node
  | .nil => nil
  | .boolean b => return .boolean (← intern (·.boolean b))
  | .integer i => return .integer (← intern (·.integer i))
  | .rational n d => return .rational n d
  | .decimal d => return .decimal d
  | .string s => return .string (← intern (·.string s))
  | .keyword k => return .keyword (← intern (·.keyword (Name.parse k)))
  | .symbol s => return .symbol (← intern (·.symbol (Name.parse s)))
  | .list elements => return .list (← quotedAll elements)
  | .vector elements => return .vector (← quotedAll elements)
  | .set elements => return .set (← quotedAll elements)
  | .map entries => return .map (← quotedEntries entries)

def quotedAll : List Form → InSession (List Node)
  | [] => return []
  | form :: rest => do
    let node ← quoted form
    return node :: (← quotedAll rest)

def quotedEntries : List (Form × Form) → InSession (List (Node × Node))
  | [] => return []
  | (key, value) :: rest => do
    let key ← quoted key
    let value ← quoted value
    return (key, value) :: (← quotedEntries rest)

end

end ScriptLisp.Analysis
