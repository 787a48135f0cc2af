import ScriptLisp.Target.Basic

/-!
The arguments of the `compile` command: one file, and a target by `-t` or `--target`, before or
after the file. Arguments are taken from left to right, and the first that makes no sense decides.
Only then is it checked, in this order, that the option for the target got a value, that there is a
file, that each value names a target, and that the option was used once.
-/

namespace ScriptLisp.CommandLine

inductive UsageFault where
  | displayHelp
  | unknownArgument
  | tooManyValues
  | emptyValue
  | missingRequiredArgument
  | invalidValue
  | unexpectedMultipleUsage
deriving DecidableEq, Repr

/-- The file to compile and the target to compile it to. -/
structure Options where
  input : String
  target : Target
deriving DecidableEq, Repr

/-- The arguments seen so far. -/
structure Seen where
  input : Option String := none
  /-- How often the option for the target was used, with or without a value. -/
  uses : Nat := 0
  /-- The values of the option for the target. -/
  targets : List String := []
  /-- An option for the target still waits for its value. -/
  waiting : Bool := false
  /-- After `--` every argument is a file. -/
  plain : Bool := false
deriving Repr

/-- Takes a file. -/
def Seen.file (seen : Seen) (arg : String) : Except UsageFault Seen :=
  match seen.input with
  | none => .ok { seen with input := some arg }
  | some _ => .error .unknownArgument

/-- Takes the option for the target, whose value comes next, if at all. -/
def Seen.option (seen : Seen) : Seen :=
  { seen with uses := seen.uses + 1, waiting := true }

/-- Takes the value of the option for the target. -/
def Seen.value (seen : Seen) (name : String) : Seen :=
  { seen with targets := seen.targets ++ [name], waiting := false }

/-- Takes one argument. -/
def Seen.take (seen : Seen) (arg : String) : Except UsageFault Seen :=
  if seen.plain then seen.file arg
  else
    match arg.toList with
    | ['-', '-'] => .ok { seen with plain := true }
    | '-' :: '-' :: long =>
      let name := String.ofList (long.takeWhile (· != '='))
      let attached := long.dropWhile (· != '=')
      match name, attached with
      | "target", [] => .ok seen.option
      | "target", _ :: value => .ok (seen.option.value (String.ofList value))
      | "help", [] => .error .displayHelp
      | "help", _ :: _ => .error .tooManyValues
      | _, _ => .error .unknownArgument
    | '-' :: 't' :: attached =>
      match attached with
      | [] => .ok seen.option
      | '=' :: value => .ok (seen.option.value (String.ofList value))
      | value => .ok (seen.option.value (String.ofList value))
    | '-' :: 'h' :: _ => .error .displayHelp
    | '-' :: _ :: _ => .error .unknownArgument
    | _ => if seen.waiting then .ok (seen.value arg) else seen.file arg

/-- Refuses an option for the target that never got a value. -/
def Seen.checkValue (seen : Seen) : Except UsageFault Unit :=
  if seen.uses ≠ 0 ∧ seen.targets.isEmpty then .error .emptyValue else .ok ()

/-- The target that was named, JavaScript if none was. -/
def Seen.target (seen : Seen) : Except UsageFault Target := do
  let targets ← seen.targets.mapM fun name =>
    match Target.ofName? name with
    | some target => .ok target
    | none => .error .invalidValue
  if 1 < seen.uses then .error .unexpectedMultipleUsage
  else return targets.headD .javascript

/-- Checks what all arguments together say. -/
def Seen.finish (seen : Seen) : Except UsageFault Options := do
  seen.checkValue
  match seen.input with
  | none => .error .missingRequiredArgument
  | some input => return ⟨input, ← seen.target⟩

/-- The options that arguments stand for. -/
def Options.parse (args : List String) : Except UsageFault Options := do
  (← args.foldlM Seen.take {}).finish

/-- The target that arguments name where no file is taken. -/
def Options.parseTarget (args : List String) : Except UsageFault Target := do
  let seen ← args.foldlM Seen.take {}
  if seen.input.isSome then .error .unknownArgument
  else do
    seen.checkValue
    seen.target

end ScriptLisp.CommandLine
