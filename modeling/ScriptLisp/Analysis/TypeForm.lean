import ScriptLisp.Analysis.Function

/-!
Types and protocols: attributes, the protocols they follow, and methods.
-/

namespace ScriptLisp.Analysis

open Session

/-- The names of attributes. -/
def attributes (form : Form) : List Form → InSession (List Variable)
  | [] => return []
  | .symbol name :: rest => do
    let first ← variableOf name
    return first :: (← attributes form rest)
  | _ => reject form .attributeName

structure Members where
  protocols : List Variable := []
  methods : List Method := []

/-- Members in order: a symbol names a protocol, and a list is a method. -/
def members (step : Step) (form : Form) : List Form → Members → InSession Members
  | [], found => return found
  | .symbol protocol :: rest, found => do
    let protocol ← variableOf protocol
    members step form rest { found with protocols := found.protocols ++ [protocol] }
  | .list (.symbol name :: .vector parameters :: forms) :: rest, found => do
    let name ← variableOf name
    let parameters ← params form parameters
    let forms ← body step forms
    members step form rest
      { found with methods := found.methods ++ [.mk name parameters forms] }
  | .list _ :: _, _ => reject form .memberMethod
  | _, _ => reject form .memberShape

/-- Types `(deftype name [attribute*] member*)`; the type is bound to its name. -/
def typeDefinition (step : Step) (form : Form) : InSession Node := do
  match form.operands with
  | .symbol name :: .vector names :: rest =>
    let name ← variableOf name
    let attributes ← attributes form names
    let found ← members step form rest {}
    return .definition name (.typeDefinition name attributes found.protocols found.methods)
  | _ => reject form .typeShape

/-- Protocols `(defprotocol name member*)`. -/
def protocolDefinition (step : Step) (form : Form) : InSession Node := do
  match form.operands with
  | .symbol name :: rest =>
    let name ← variableOf name
    let found ← members step form rest {}
    return .protocolDefinition name found.protocols found.methods
  | _ => reject form .protocolShape

end ScriptLisp.Analysis
