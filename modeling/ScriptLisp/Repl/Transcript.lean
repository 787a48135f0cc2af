import ScriptLisp.Repl.Command

/-!
The interactive compiler as a function from the lines it is given to what it prints. Its session
lasts for all lines, so a macro of one line serves the next. Each line is taken by itself.
-/

namespace ScriptLisp.Repl

/-- What was printed so far. -/
structure Printed where
  output : String := ""
  errors : String := ""
deriving DecidableEq, Repr

namespace Printed

def write (printed : Printed) (text : String) : Printed :=
  { printed with output := printed.output ++ text }

/-- Prints a message on a line of its own among the errors. -/
def complain (printed : Printed) (message : String) : Printed :=
  { printed with errors := printed.errors ++ message ++ "\n" }

end Printed

def version : String := "0.1.0"

def banner (target : Target) : String :=
  "WonderScript - a lisp for the JavaScript and Ruby runtimes\nVersion: " ++ version
    ++ "\nTarget: " ++ target.name ++ "\n\nType :help for help.\n"

/-- The notice for fuel that was used up. -/
def outOfFuelMessage : String := "out of fuel"

/-- Compiles a line of code. -/
def compileLine (fuel : Nat) (line : String) (printed : Printed) (session : Session) :
    Printed × Session :=
  match session.compile fuel line with
  | (.ok text, session) => (printed.write text, session)
  | (.error (.fault fault), session) =>
    if fault.isIncomplete then
      (printed.complain ("Incomplete input: " ++ String.ofList (Text.trim line.toList)), session)
    else (printed.complain fault.message, session)
  | (.error .outOfFuel, session) => (printed.complain outOfFuelMessage, session)

/-- Handles a line: nothing for a blank one, else a command or code. -/
def handle (fuel : Nat) (line : String) (printed : Printed) (session : Session) :
    Printed × Session :=
  if (Text.trim line.toList).isEmpty then (printed, session)
  else
    match dispatch fuel line session with
    | none => compileLine fuel line printed session
    | some (.ok lines, session) => (printed.write (Repl.printed lines), session)
    | some (.error (.fault fault), session) => (printed.complain fault.message, session)
    | some (.error .outOfFuel, session) => (printed.complain outOfFuelMessage, session)

/-- Handles lines in order. -/
def handleAll (fuel : Nat) (lines : List String) (printed : Printed) (session : Session) :
    Printed × Session :=
  lines.foldl (fun (printed, session) line => handle fuel line printed session)
    (printed, session)

def splitLines : List Char → List (List Char)
  | [] => [[]]
  | '\n' :: cs => [] :: splitLines cs
  | c :: cs =>
    match splitLines cs with
    | line :: lines => (c :: line) :: lines
    | [] => [[c]]

/-- Everything that is printed for an input, from the greeting to the end of the input. -/
def transcript (fuel : Nat) (target : Target) (input : String) : Printed :=
  let lines := (splitLines input.toList).map String.ofList
  let (printed, _) := handleAll fuel lines ⟨banner target, ""⟩ (.new target)
  printed.write "CTRL-D\n"

end ScriptLisp.Repl
