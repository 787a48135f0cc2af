import ScriptLisp.Analysis.Control
import ScriptLisp.Analysis.Interop
import ScriptLisp.Analysis.TypeForm

/-!
Analysis: forms become nodes. Macros at the head of a form are expanded first; then the head of a
list selects a special form or an operator, and any other list is a call. A macro is known to all
forms after its definition, also within the same form. Expansion may never end, so analysis is
bounded by fuel; without macros, fuel beyond the depth of the form is enough.
-/

namespace ScriptLisp

/-- Lists that are not calls, by their head. -/
inductive SpecialForm where
  | definition
  | quotation
  | cond
  | conditional
  | function
  | block
  | loop
  | recur
  | throwing
  | trying
  | instantiation
  | method
  | property
  | assignment
  | macroDefinition
  | typeDefinition
  | protocolDefinition
deriving DecidableEq, Repr

namespace SpecialForm

def all : List SpecialForm :=
  [definition, quotation, cond, conditional, function, block, loop, recur, throwing, trying,
    instantiation, method, property, assignment, macroDefinition, typeDefinition,
    protocolDefinition]

def name : SpecialForm → String
  | definition => "def"
  | quotation => "quote"
  | cond => "cond"
  | conditional => "if"
  | function => "fn"
  | block => "do"
  | loop => "loop"
  | recur => "recur"
  | throwing => "throw"
  | trying => "try"
  | instantiation => "new"
  | method => "."
  | property => ".-"
  | assignment => "set!"
  | macroDefinition => "defmacro"
  | typeDefinition => "deftype"
  | protocolDefinition => "defprotocol"

/-- The special form with a head. -/
def ofName? (name : String) : Option SpecialForm :=
  all.find? (·.name == name)

end SpecialForm

namespace Analysis

open Session

/-- Quotations `(quote form)`. -/
def quotation (form : Form) : InSession Node :=
  match form.operands with
  | [data] => quoted data
  | _ => reject form .quotationShape

/-- Macros `(defmacro name [param*] body)` or `(defmacro name ([param*] body) ...)`, known from here
on. -/
def macroDefinition (step : Step) (form : Form) : InSession Node := do
  match form.operands with
  | .symbol name :: first :: rest =>
    let definition ← function step form (first :: rest)
    defineMacro (Name.parse name) definition
    return .macroDefinition (Name.parse name) definition
  | _ => reject form .macroShape

/-- A special form, by its head. -/
def special (step : Step) (form : Form) : SpecialForm → InSession Node
  | .definition => definition step form
  | .quotation => quotation form
  | .cond => cond step form
  | .conditional => conditional step form
  | .function => return .lambda (← function step form form.operands)
  | .block => return .block (← inOrder step form.operands)
  | .loop => loop step form
  | .recur => return .recursionPoint (← inOrder step form.operands)
  | .throwing => throwing step form
  | .trying => trying step form
  | .instantiation => instantiation step form
  | .method => method step form
  | .property => property step form
  | .assignment => assignment step form
  | .macroDefinition => macroDefinition step form
  | .typeDefinition => typeDefinition step form
  | .protocolDefinition => protocolDefinition step form

/-- An operator, by its name, with its operands, as many as it takes. -/
def operation (step : Step) (form : Form) (name : String) : InSession Node := do
  match Operator.ofName? name, form.operands with
  | some (.binary operator), [left, right] =>
    let left ← step left
    return .binary operator left (← step right)
  | some (.binary _), operands =>
    fail (.analysis (.arityMismatch name 2 operands.length form))
  | some (.unary operator), [operand] => return .unary operator (← step operand)
  | some (.unary _), operands =>
    fail (.analysis (.arityMismatch name 1 operands.length form))
  | some (.arithmetic operator), operands => return .arithmetic operator (← inOrder step operands)
  | none, _ => fail (.analysis (.unknownOperator name form))

/-- The call of whatever the head denotes. -/
def application (step : Step) (head : Form) (operands : List Form) : InSession Node := do
  let head ← step head
  return .application head (← inOrder step operands) false

/-- A list as code; the empty list is itself. -/
def listForm (step : Step) (elements : List Form) : InSession Node :=
  match elements with
  | [] => return .list []
  | .symbol name :: operands =>
    match SpecialForm.ofName? name, Operator.ofName? name with
    | some head, _ => special step (.list elements) head
    | none, some _ => operation step (.list elements) name
    | none, none => application step (.symbol name) operands
  | head :: operands => application step head operands

/-- Understands a form as code. -/
def analyze : Nat → Form → InSession Node
  | 0, _ => throw .outOfFuel
  | fuel + 1, form => do
    match ← expandUse fuel form with
    | some expanded => analyze fuel expanded
    | none =>
      match form with
      | .list elements => listForm (analyze fuel) elements
      | other => literal (analyze fuel) other

end Analysis

end ScriptLisp
