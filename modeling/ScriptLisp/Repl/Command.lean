import ScriptLisp.Session.Compile
import ScriptLisp.Text.Basic

/-!
Commands of the interactive compiler. A line that starts with a colon is a command, everything else
is code. A command answers with lines, or fails with a message.
-/

namespace ScriptLisp.Repl

/-- A command of the interactive compiler. -/
inductive Command where
  | help
  | target
  | macros
  | source (name : String)
  | expand (text : String)
deriving DecidableEq, Repr

/-- How each command is used and what it does. -/
def usages : List (String × String) :=
  [(":help", "Show help on the available commands"),
    (":target", "Show the target code is compiled to"),
    (":macros", "List the macros defined so far"),
    (":source name", "Show the compiled source of the macro `name`"),
    (":expand form", "Show the full macro expansion of `form`")]

inductive CommandFault where
  | invalid
  | noMacro (name : String)
  | reading (fault : Reader.Failure)
  | form (fault : FormFault)

def CommandFault.message : CommandFault → String
  | invalid => "Invalid command. Type :help for help."
  | noMacro name => "No macro named " ++ name
  | reading fault => fault.message
  | form fault => fault.message

/-- What a line asks for. -/
inductive Line where
  | code
  | command (command : Command)
  | invalid
deriving DecidableEq, Repr

/-- Takes a line apart. The name of a command ends at the first white space, and what follows is its
argument. -/
def Line.parse (line : String) : Line :=
  let trimmed := Text.trim line.toList
  if trimmed.head? != some ':' then .code
  else
    let name := String.ofList (trimmed.takeWhile fun c => !Text.isBlank c)
    let argument := String.ofList (Text.trim (trimmed.dropWhile fun c => !Text.isBlank c))
    match name, argument with
    | ":help", "" => .command .help
    | ":target", "" => .command .target
    | ":macros", "" => .command .macros
    | ":source", argument => if argument.isEmpty then .invalid else .command (.source argument)
    | ":expand", argument => if argument.isEmpty then .invalid else .command (.expand argument)
    | _, _ => .invalid

/-- A usage and its description in two columns. -/
def helpLine (usage description : String) : String :=
  String.ofList (usage.toList ++ List.replicate (25 - usage.length) ' ') ++ " " ++ description

/-- A step of the session, and the answer or the reason why there is none. -/
abbrev Answer := Except (Halt CommandFault) (List String) × Session

/-- The expansions of forms in order. -/
def expansions (fuel : Nat) : List Form → InSession (List String)
  | [] => return []
  | form :: rest => do
    let expansion ← Session.expand fuel form
    return expansion.display :: (← expansions fuel rest)

/-- The expansions of all forms of a text. -/
def expandText (fuel : Nat) (text : String) (session : Session) : Answer :=
  match read text with
  | .error fault => (.error (.fault (.reading fault)), session)
  | .ok forms =>
    match expansions fuel forms session with
    | (.ok lines, session) => (.ok lines, session)
    | (.error (.fault fault), session) => (.error (.fault (.form fault)), session)
    | (.error .outOfFuel, session) => (.error .outOfFuel, session)

def Command.run (fuel : Nat) (command : Command) (session : Session) : Answer :=
  match command with
  | help =>
    (.ok ("Available commands: " :: usages.map fun (usage, text) => helpLine usage text), session)
  | target => (.ok [session.target.name], session)
  | macros =>
    match session.registry.names with
    | [] => (.ok ["No macros defined"], session)
    | names => (.ok [" ".intercalate names], session)
  | source name =>
    match session.registry.find? name with
    | some m => (.ok [m.source], session)
    | none => (.error (.fault (.noMacro name)), session)
  | expand text => expandText fuel text session

/-- Runs a line if it is a command; `none` if it is code. -/
def dispatch (fuel : Nat) (line : String) (session : Session) : Option Answer :=
  match Line.parse line with
  | .code => none
  | .command command => some (command.run fuel session)
  | .invalid => some (.error (.fault .invalid), session)

def printed (lines : List String) : String :=
  String.join (lines.map (· ++ "\n"))

end ScriptLisp.Repl
