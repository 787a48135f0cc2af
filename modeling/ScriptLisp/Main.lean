import ScriptLisp.CommandLine.Compile
import ScriptLisp.Repl.Transcript

/-!
The command line: `compile` prints a file in the target, and `repl` compiles lines as they come.
-/

namespace ScriptLisp.CommandLine

def UsageFault.message : UsageFault → String
  | .displayHelp => "usage: compile [-t js|javascript|rb|ruby] FILE | repl [-t TARGET]"
  | .unknownArgument => "unknown argument"
  | .tooManyValues => "too many values"
  | .emptyValue => "the target is missing"
  | .missingRequiredArgument => "the file is missing"
  | .invalidValue => "unknown target"
  | .unexpectedMultipleUsage => "the target is given more than once"

def readFile (path : String) : IO (Except FileFault String) := do
  match checkPath path with
  | .error fault => return .error fault
  | .ok () =>
    try
      return decode (← IO.FS.readBinFile path)
    catch
      | .inappropriateType _ code _ =>
        return .error (if code = 20 then .notDirectory else .isDirectory)
      | .invalidArgument _ _ _ => return .error .nameTooLong
      | _ => return .error .notFound

/-- Prints a file in the target. -/
def compileCommand (args : List String) : IO UInt32 := do
  match Options.parse args with
  | .error fault => do
    IO.eprintln fault.message
    return 2
  | .ok options =>
    match run Session.ample options.target (← readFile options.input) with
    | .ok output => do
      IO.print output
      return 0
    | .error (.fault fault) => do
      IO.eprintln (fault.message options.input)
      return 1
    | .error .outOfFuel => do
      IO.eprintln Repl.outOfFuelMessage
      return 1

/-- Prints what a line added. -/
def flush (printed : Repl.Printed) : IO Unit := do
  IO.print printed.output
  IO.eprint printed.errors
  (← IO.getStdout).flush

/-- Handles lines until the input ends. -/
partial def converse (input : IO.FS.Stream) (session : Session) : IO Unit := do
  let line ← input.getLine
  if line.isEmpty then
    IO.println "CTRL-D"
  else
    let (printed, session) := Repl.handle Session.ample line {} session
    flush printed
    converse input session

/-- Compiles lines as they come. -/
def replCommand (args : List String) : IO UInt32 := do
  match Options.parseTarget args with
  | .error fault => do
    IO.eprintln fault.message
    return 2
  | .ok target => do
    IO.print (Repl.banner target)
    converse (← IO.getStdin) (.new target)
    return 0

end ScriptLisp.CommandLine

open ScriptLisp.CommandLine in
def main (args : List String) : IO UInt32 := do
  match args with
  | "compile" :: rest | "c" :: rest => compileCommand rest
  | "repl" :: rest => replCommand rest
  | _ => do
    IO.eprintln (UsageFault.message .displayHelp)
    return 2
