import ScriptLisp.Eval.Library
import ScriptLisp.Eval.Number

/-!
Evaluation of nodes. A node in tail position ends in a value or asks to go back to the closest loop
or function with new values; anywhere else going back is a fault. Every call of the evaluator has
less fuel than the one it comes from, so it is total; with enough fuel an answer no longer depends
on the amount.

Sequences, branches and bindings are evaluated by functions of their own, which are told how to
evaluate a node. The procedures that programs call are those of a library, which evaluation is
given; unless another one is meant, it is the core library.
-/

namespace ScriptLisp.Eval

/-- How a node in tail position ends. -/
inductive Flow where
  | value (value : Value)
  /-- Go back to the closest loop or function with these values. -/
  | recur (values : List Value)

/-- The value of an evaluation that must not go back. -/
def valueOf (evaluation : Evaluation Flow) : Evaluation Value := do
  match ← evaluation with
  | .value value => return value
  | .recur _ => fail .recurOutsideLoop

/-! ### Evaluation in sequence -/

/-- Evaluates nodes in order for their values. -/
def values (step : Node → Evaluation Flow) : List Node → Evaluation (List Value)
  | [] => return []
  | node :: rest => do
    let value ← valueOf (step node)
    return value :: (← values step rest)

/-- Evaluates the keys and values of entries in order. -/
def entryValues (step : Node → Evaluation Flow) :
    List (Node × Node) → Evaluation (List (Value × Value))
  | [] => return []
  | (key, value) :: rest => do
    let key ← valueOf (step key)
    let value ← valueOf (step value)
    return (key, value) :: (← entryValues step rest)

/-- Evaluates nodes in order; the last one decides, and an empty sequence is `nil`. -/
def inSequence (step : Node → Evaluation Flow) : List Node → Evaluation Flow
  | [] => return .value .nil
  | [last] => step last
  | node :: rest => do
    let _ ← valueOf (step node)
    inSequence step rest

/-- Evaluates the consequent of the first test that holds. -/
def choose (step : Node → Evaluation Flow) : List (Node × Node) → Node → Evaluation Flow
  | [], otherwise => step otherwise
  | (test, consequent) :: rest, otherwise => do
    if (← valueOf (step test)).isTruthy then step consequent else choose step rest otherwise

/-- Evaluates initial values in order; each one sees the bindings before it. -/
def bindInits (step : Environment → Node → Evaluation Flow) :
    List (Variable × Node) → Environment → Evaluation Environment
  | [], environment => return environment
  | (name, init) :: rest, environment => do
    let value ← valueOf (step environment init)
    bindInits step rest (environment.set name value)

/-! ### Handlers -/

/-- What a handler sees of an ending: the thrown value, or the message of another fault. Going back
and running out of fuel are not handled. -/
def caughtValue : Except (Halt Fault) Flow → Option Value
  | .error (.fault .recurOutsideLoop) => none
  | .error (.fault (.thrown value)) => some value
  | .error (.fault other) => some (.string other.message)
  | .error .outOfFuel => none
  | .ok _ => none

/-- Evaluates a body with a handler and a part that runs whatever the ending; a fault of that part
replaces the ending. -/
def handled (step : Environment → List Node → Evaluation Flow) (environment : Environment)
    (body : List Node) (handler : Option (Variable × List Node))
    (cleanup : Option (List Node)) : Evaluation Flow := do
  let ending ← observe (step environment body)
  let ending ←
    match caughtValue ending, handler with
    | some value, some (binding, handler) =>
      observe (step (environment.set binding value) handler)
    | _, _ => pure ending
  match ending, cleanup with
  | .error .outOfFuel, _ => throw .outOfFuel
  | ending, some cleanup => do
    let _ ← valueOf (step environment cleanup)
    liftExcept ending
  | ending, none => liftExcept ending
where
  liftExcept : Except (Halt Fault) Flow → Evaluation Flow
    | .ok flow => pure flow
    | .error halt => throw halt

/-! ### Variables and parameters -/

/-- The value of a variable: of its local binding, else of its global definition. -/
def lookup (name : Variable) (environment : Environment) : Evaluation Value := do
  match (environment.lookup name).or ((← get).globals.lookup name) with
  | some value => return value
  | none => fail (.unbound name)

/-- Defines a variable on the machine. -/
def define (name : Variable) (value : Value) : Evaluation Unit :=
  modify (·.define name value)

/-- Binds parameters to arguments; all further arguments are a list, or `nil` if there are none. -/
def bindParams (environment : Environment) (params : Params) (args : List Value) : Environment :=
  let scope := environment.setAll params.fixed args
  match params.rest with
  | some rest =>
    match args.drop params.required with
    | [] => scope.set rest .nil
    | others => scope.set rest (.list others)
  | none => scope

/-! ### Nodes -/

variable [Library]

mutual

/-- Evaluates a node in tail position. -/
def run : Nat → Environment → Node → Evaluation Flow
  | 0, _, _ => throw .outOfFuel
  | fuel + 1, environment, node =>
    let step := run fuel environment
    let result (value : Value) : Evaluation Flow := return .value value
    match node with
    | .recursionPoint args => do return .recur (← values step args)
    | .conditional branches otherwise => choose step branches otherwise
    | .block body => inSequence step body
    | .exceptionHandler body handler cleanup =>
      handled (fun scope => inSequence (run fuel scope)) environment body handler cleanup
    | .nil _ => result .nil
    | .boolean b => result (.boolean b.value)
    | .integer i => result (.integer i.value)
    | .rational n d => result (.rational n d)
    | .decimal d => result (.decimal d)
    | .string s => result (.string s.value)
    | .keyword k => result (.keyword k.value.display)
    | .symbol s => result (.symbol s.value.display)
    | .list elements => do result (.list (← values step elements))
    | .vector elements => do result (.vector (← values step elements))
    | .set elements => do result (Value.setOf (← values step elements))
    | .map entries => do result (Value.mapOf (← entryValues step entries))
    | .reference name => do result (← lookup name environment)
    | .definition name value => do
      let value ← valueOf (step value)
      define name value
      result value
    | .lambda function => do result (.closure (← newIdentity) function environment)
    | .loop bindings body => do
      let scope ← bindInits (run fuel) bindings environment
      result (← iterate fuel (bindings.map (·.1)) body scope)
    | .exception expression => do fail (.thrown (← valueOf (step expression)))
    | .application invocable args _ => do
      let callee ← valueOf (step invocable)
      let args ← values step args
      result (← apply fuel callee args)
    | .binary .and left right => do
      let value ← valueOf (step left)
      if value.isTruthy then result (← valueOf (step right)) else result value
    | .binary .or left right => do
      let value ← valueOf (step left)
      if value.isTruthy then result value else result (← valueOf (step right))
    | .binary .instanceOf left _ => do
      let _ ← valueOf (step left)
      fail (.unsupportedOperator .instanceOf)
    | .binary operator left right => do
      let left ← valueOf (step left)
      let right ← valueOf (step right)
      result (← lift (binary operator left right))
    | .unary operator operand => do result (← lift (unary operator (← valueOf (step operand))))
    | .arithmetic operator args => do result (← lift (arithmetic operator (← values step args)))
    | .classInstantiation _ _ => fail (.unsupported .classInstantiation)
    | .methodResolution _ _ _ => fail (.unsupported .methodResolution)
    | .propertyResolution _ _ => fail (.unsupported .propertyResolution)
    | .assignment _ _ => fail (.unsupported .assignment)
    | .macroDefinition _ _ => fail (.unsupported .macroDefinition)
    | .typeDefinition _ _ _ _ => fail (.unsupported .typeDefinition)
    | .protocolDefinition _ _ _ => fail (.unsupported .protocolDefinition)

/-- Runs the body of a loop until it ends in a value. The loop keeps one scope, and each round
overwrites its names there. -/
def iterate : Nat → List Variable → List Node → Environment → Evaluation Value
  | 0, _, _, _ => throw .outOfFuel
  | fuel + 1, names, body, scope => do
    match ← inSequence (run fuel scope) body with
    | .value value => return value
    | .recur values =>
      if values.length = names.length then
        iterate fuel names body (scope.setAll names values)
      else fail (.arityMismatch "recur" (toString names.length) values.length)

/-- Calls a value with arguments. -/
def apply : Nat → Value → List Value → Evaluation Value
  | 0, _, _ => throw .outOfFuel
  | fuel + 1, callee, args =>
    match callee with
    | .builtin procedure => Library.call (apply fuel) procedure args
    | .closure _ function environment => enter fuel function environment args
    | other => fail (.notCallable other)

/-- Runs the clause of a function for its arguments until it ends in a value. Going back selects a
clause again. -/
def enter : Nat → Lambda → Environment → List Value → Evaluation Value
  | 0, _, _, _ => throw .outOfFuel
  | fuel + 1, function, environment, args =>
    match function.clauseFor? args.length with
    | none => fail (.arityMismatch "fn" (describeArities function) args.length)
    | some clause => do
      match ← inSequence (run fuel (bindParams environment clause.params args)) clause.body with
      | .value value => return value
      | .recur values => enter fuel function environment values

end

/-- The value of a node under local bindings. -/
def eval (fuel : Nat) (environment : Environment) (node : Node) : Evaluation Value :=
  valueOf (run fuel environment node)

end ScriptLisp.Eval
