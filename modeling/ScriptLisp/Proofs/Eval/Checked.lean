import ScriptLisp.Eval.Run

/-!
Evaluation with checked accesses. The bodies of the library procedures are written here once more as
they take their arguments apart, by positions, removals and splits that nothing in the body guards.
Where there is nothing at a position, a body has no result at all, which is neither a value nor a
fault. They make a library of their own, which goes on behind a missing result in any way that it is
told, and evaluation with checked accesses is evaluation with this library.
-/

namespace ScriptLisp.Eval.Checked

/-! ### Accesses -/

/-- The run of a body, which has no result once an access is outside of what is there. -/
abbrev Body := OptionT Evaluation

/-- Every access of a body is inside of what is there, whatever the machine. -/
def Inside {α : Type} (body : Body α) : Prop :=
  ∀ machine, (body.run machine).1 ≠ .ok none

/-- A result that needs no machine. -/
def given {α : Type} (result : Except Fault α) : Body α :=
  OptionT.lift (lift result)

def elementAt (values : List Value) (place : Nat) : Body Value :=
  match values[place]? with
  | some value => pure value
  | none => failure

def removeFirst : List Value → Body (Value × List Value)
  | [] => failure
  | value :: others => pure (value, others)

/-- The values before a position and the values from it on. -/
def splitOff (values : List Value) (place : Nat) : Body (List Value × List Value) :=
  if place ≤ values.length then pure (values.take place, values.drop place) else failure

/-- The elements of the argument at a position. -/
def elementsAt (args : List Value) (place : Nat) : Body (List Value) := do
  given (elementsOf (← elementAt args place))

/-! ### Bodies -/

/-- Adds values to a map; an addition is read at two positions if it has two elements. -/
def conjEntries (entries : List (Value × Value)) : List Value → Body (List (Value × Value))
  | [] => pure entries
  | addition :: rest => do
    let entry ← given (elementsOf addition)
    if entry.length = 2 then
      let key ← elementAt entry 0
      let value ← elementAt entry 1
      conjEntries (Value.insertEntry entries key value) rest
    else given (.error (.wrongType .entry addition))

/-- Adds values where the collection grows. -/
def conj (collection : Value) (additions : List Value) : Body Value :=
  match collection with
  | .map entries => return .map (← conjEntries entries additions)
  | other => given (Eval.conj other additions)

/-- The element at a place counted from zero, or else a default. -/
def nth (elements : List Value) (index : Value) (default? : Option Value) : Body Value :=
  match index with
  | .integer i =>
    let found := if i < 0 then none else elements[i.toInt.toNat]?
    match found.or default? with
    | some value => pure value
    | none => given (.error (.argument (.outOfBounds i elements.length)))
  | other => given (.error (.wrongType .integerIndex other))

/-- The text of a name, or of a qualifier and a name. -/
def qualifiedText : List Value → Body String
  | [name] => given (nameText name)
  | [qualifier, name] => given (Eval.qualifiedText qualifier name)
  | _ => failure

/-- A test of the first argument. -/
def decides (args : List Value) (test : Value → Bool) : Body Value :=
  return .boolean (test (← elementAt args 0))

/-- The body of a library procedure. The one that spreads a sequence over a call is given the way to
call. -/
def body (applyTo : Value → List Value → Evaluation Value) (procedure : Builtin)
    (args : List Value) : Body Value :=
  match procedure with
  | .list => return .list args
  | .vector => return .vector args
  | .hashMap => given (hashMap args)
  | .hashSet => return Value.setOf args
  | .first => return (← elementsAt args 0).headD .nil
  | .second => return (← elementsAt args 0)[1]?.getD .nil
  | .rest => do
    let elements ← elementsAt args 0
    if elements.isEmpty then return .list [] else return .list (← splitOff elements 1).2
  | .next => do
    let elements ← elementsAt args 0
    if elements.length ≤ 1 then return .nil else return .list (← splitOff elements 1).2
  | .cons => do
    let elements ← elementsAt args 1
    return .list ((← elementAt args 0) :: elements)
  | .conj => do
    let (kept, additions) ← splitOff args 1
    let (collection, _) ← removeFirst kept
    conj collection additions
  | .concat => return .list (← given (concat args))
  | .count => return .integer (Int64.ofNat (← elementsAt args 0).length)
  | .nth => do
    let elements ← elementsAt args 0
    nth elements (← elementAt args 1) args[2]?
  | .isEmpty => return .boolean (← elementsAt args 0).isEmpty
  | .isList | .isSeq => decides args (· matches .list _)
  | .isVector => decides args (· matches .vector _)
  | .isMap => decides args (· matches .map _)
  | .isSet => decides args (· matches .set _)
  | .isSymbol => decides args (· matches .symbol _)
  | .isKeyword => decides args (· matches .keyword _)
  | .isString => decides args (· matches .string _)
  | .isNumber => decides args (·.isNumber)
  | .isNil => decides args (· matches .nil)
  | .symbol => return .symbol (← qualifiedText args)
  | .keyword => return .keyword (← qualifiedText args)
  | .name => do given (baseName (← elementAt args 0))
  | .qualifier => do given (qualifierOf (← elementAt args 0))
  | .str => return .string (String.join (args.map joinedText))
  | .apply => do
    let (function, others) ← removeFirst args
    let spread ←
      match others.getLast? with
      | some last => given (elementsOf last)
      | none => pure []
    OptionT.lift (applyTo function (others.dropLast ++ spread))
  | .identity => return (← removeFirst args).1
  | .gensym => do
    let start ←
      match args.head? with
      | some value => given (gensymStart value)
      | none => pure "G__"
    return .symbol (← OptionT.lift (generateName start))

/-! ### Evaluation -/

/-- The evaluation of a body, with an ending of its own for a missing result. -/
def settle (crash : Evaluation Value) (body : Body Value) : Evaluation Value := do
  match ← body.run with
  | some value => return value
  | none => crash

/-- The library of these bodies. The number of arguments is compared with the arity of a procedure
here, and nowhere else. -/
@[reducible]
def library (crash : Evaluation Value) : Library where
  call := guarded fun applyTo procedure args => settle crash (body applyTo procedure args)

variable (crash : Evaluation Value)

abbrev run : Nat → Environment → Node → Evaluation Flow :=
  @Eval.run (library crash)

/-- Runs the body of a loop until it ends in a value. -/
abbrev iterate : Nat → List Variable → List Node → Environment → Evaluation Value :=
  @Eval.iterate (library crash)

abbrev apply : Nat → Value → List Value → Evaluation Value :=
  @Eval.apply (library crash)

/-- Runs the clause of a function for its arguments until it ends in a value. -/
abbrev enter : Nat → Lambda → Environment → List Value → Evaluation Value :=
  @Eval.enter (library crash)

end ScriptLisp.Eval.Checked
