import ScriptLisp.Analysis.Basic
import ScriptLisp.Reader.Basic

/-!
Compilation. Each form at the top level is analyzed and generated on its own, so macros of earlier
forms serve later ones. The first form that fails ends the compilation, and what the forms before
it did to the session stays.
-/

namespace ScriptLisp

namespace Session

/-- Stands after the text of every form that has any. -/
def terminator : String := ";\n"

/-- The text of a form as a part of the program. -/
def terminated (text : String) : String :=
  if text.isEmpty then "" else text ++ terminator

/-- The text of a form; a macro definition has an empty one. -/
def compileForm (fuel : Nat) (form : Form) : InSession String := do
  let node ← Analysis.analyze fuel form
  match (← get).target.generate node with
  | .ok text => return text
  | .error fault => fail (.generation fault)

/-- The texts of forms in order. -/
def compileForms (fuel : Nat) : List Form → InSession String
  | [] => return ""
  | form :: rest => do
    let text ← compileForm fuel form
    return terminated text ++ (← compileForms fuel rest)

/-- The text of a program. All of it is read before any of it is compiled. -/
def compile (fuel : Nat) (text : String) (session : Session) :
    Except (Halt CompileFault) String × Session :=
  match read text with
  | .error fault => (.error (.fault (.reading fault)), session)
  | .ok forms =>
    match compileForms fuel forms session with
    | (.ok text, session) => (.ok text, session)
    | (.error (.fault fault), session) => (.error (.fault (.form fault)), session)
    | (.error .outOfFuel, session) => (.error .outOfFuel, session)

/-- Fuel that no program uses up in reasonable time. -/
def ample : Nat := Nat.pow 2 60

end Session

end ScriptLisp
