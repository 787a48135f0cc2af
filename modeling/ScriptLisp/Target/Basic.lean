import ScriptLisp.Node.Kind

/-!
Targets: the languages that programs are compiled to, and what each of them has no expression for.
-/

namespace ScriptLisp

/-- A language that programs are compiled to. -/
inductive Target where
  | javascript
  | ruby
deriving DecidableEq, Repr

namespace Target

def name : Target → String
  | javascript => "javascript"
  | ruby => "ruby"

/-- The extension of files in the target, which is also its short name. -/
def extension : Target → String
  | javascript => "js"
  | ruby => "rb"

def all : List Target :=
  [javascript, ruby]

/-- The target with a name or short name. -/
def ofName? (name : String) : Option Target :=
  all.find? fun target => target.extension == name || target.name == name

/-- The kinds of constructs that a target has no text for. -/
def unsupported : Target → List NodeKind
  | javascript => []
  | ruby =>
    [.loop, .recursionPoint, .exceptionHandler, .typeDefinition, .typeMethod, .protocolDefinition]

/-- Whether a target has a text for a kind of construct. -/
def supports (target : Target) (kind : NodeKind) : Bool :=
  !target.unsupported.contains kind

inductive Failure where
  | unsupported (construct : NodeKind) (target : Target)
deriving DecidableEq, Repr

/-- Fails for a kind of construct that a target has no text for. -/
def ensureSupported (target : Target) (kind : NodeKind) : Except Failure Unit :=
  if target.supports kind then .ok () else .error (.unsupported kind target)

def Failure.message : Failure → String
  | .unsupported construct target =>
    "the " ++ target.name ++ " backend does not support " ++ construct.name

/-- The message for a name that no target has. -/
def unknownMessage (name : String) : String :=
  "unknown target: " ++ name

end Target

end ScriptLisp
