import ScriptLisp.CommandLine.Files
import ScriptLisp.CommandLine.Options
import ScriptLisp.Session.Compile

/-!
The `compile` command: reads a file and prints its text in the target.
-/

namespace ScriptLisp.CommandLine

/-- Why the command fails, after the path of the file. -/
inductive Fault where
  | file (fault : FileFault)
  | compilation (fault : CompileFault)

/-- The message of a failed command starts with the path of the file. -/
def Fault.message (path : String) : Fault → String
  | file fault => path ++ ": " ++ fault.message
  | compilation fault => path ++ ": " ++ fault.message

/-- What the command prints for a file with some contents. -/
def run (fuel : Nat) (target : Target) (contents : Except FileFault String) :
    Except (Halt Fault) String :=
  match contents with
  | .error fault => .error (.fault (.file fault))
  | .ok text =>
    match ((Session.new target).compile fuel text).1 with
    | .ok output => .ok output
    | .error (.fault fault) => .error (.fault (.compilation fault))
    | .error .outOfFuel => .error .outOfFuel

end ScriptLisp.CommandLine
