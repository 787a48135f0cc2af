import ScriptLisp.Eval.Machine
import ScriptLisp.Intern
import ScriptLisp.Target.Spelling
import ScriptLisp.Value.Equality

/-!
The core library: procedures that every program at compile time can call. Each one is bound under
its plain name and under the core namespace, both as the target spells them.
-/

namespace ScriptLisp.Eval

/-! ### Arities -/

/-- How many arguments a procedure takes. -/
inductive Arity where
  | exactly (count : Nat)
  | atLeast (count : Nat)
  | between (least greatest : Nat)
deriving DecidableEq, Repr

namespace Arity

/-- Whether a number of arguments is right. -/
def accepts : Arity → Nat → Bool
  | exactly n, count => count == n
  | atLeast n, count => n ≤ count
  | between least greatest, count => least ≤ count && count ≤ greatest

def describe : Arity → String
  | exactly n => toString n
  | atLeast n => "at least " ++ toString n
  | between least greatest => toString least ++ " to " ++ toString greatest

/-- The arity of a clause. -/
def ofParams (params : Params) : Arity :=
  if params.isVariadic then atLeast params.required else exactly params.required

end Arity

/-- The arities of all clauses, as in `0, 1 or at least 2`. -/
def describeArities (function : Lambda) : String :=
  let arities := function.clauses.map fun c => (Arity.ofParams c.params).describe
  match arities.dropLast, arities.getLast? with
  | first :: others, some last => ", ".intercalate (first :: others) ++ " or " ++ last
  | _, last => last.getD ""

end ScriptLisp.Eval

namespace ScriptLisp.Builtin

/-- Every procedure of the library, in the order of its listing. -/
def all : List Builtin :=
  [list, vector, hashMap, hashSet, first, second, rest, next, cons, conj, concat, count, nth,
    isEmpty, isList, isVector, isMap, isSet, isSymbol, isKeyword, isString, isNumber, isNil,
    isSeq, symbol, keyword, name, qualifier, str, apply, identity, gensym]

open Eval in
/-- How many arguments a procedure of the library takes. -/
def arity : Builtin → Arity
  | list | vector | hashMap | hashSet | concat | str => .atLeast 0
  | conj => .atLeast 1
  | apply => .atLeast 2
  | cons => .exactly 2
  | nth => .between 2 3
  | symbol | keyword => .between 1 2
  | gensym => .between 0 1
  | _ => .exactly 1

end ScriptLisp.Builtin

namespace ScriptLisp.Eval

/-! ### Sequences -/

/-- The elements of a value that must be a sequence. -/
def elementsOf (value : Value) : Except Fault (List Value) :=
  match value.elements? with
  | some elements => .ok elements
  | none => .error (.wrongType .sequence value)

/-- Adds values to a map, each a pair of a key and a value. -/
def conjEntries (entries : List (Value × Value)) :
    List Value → Except Fault (List (Value × Value))
  | [] => .ok entries
  | addition :: rest => do
    match ← elementsOf addition with
    | [key, value] => conjEntries (Value.insertEntry entries key value) rest
    | _ => .error (.wrongType .entry addition)

/-- Adds values where the collection grows: lists at the front, vectors at the end. -/
def conj (collection : Value) (additions : List Value) : Except Fault Value :=
  match collection with
  | .nil => .ok (.list additions.reverse)
  | .list elements => .ok (.list (additions.reverse ++ elements))
  | .vector elements => .ok (.vector (elements ++ additions))
  | .set elements => .ok (.set (additions.foldl Value.adjoin elements))
  | .map entries => return .map (← conjEntries entries additions)
  | other => .error (.wrongType .collection other)

/-- The element at a place counted from zero. -/
def nth (collection index : Value) (default? : Option Value) : Except Fault Value := do
  let elements ← elementsOf collection
  match index with
  | .integer i =>
    let found := if i < 0 then none else elements[i.toInt.toNat]?
    match found.or default? with
    | some value => return value
    | none => .error (.argument (.outOfBounds i elements.length))
  | other => .error (.wrongType .integerIndex other)

/-- The elements of several sequences one after the other. -/
def concat : List Value → Except Fault (List Value)
  | [] => .ok []
  | value :: rest => do
    let elements ← elementsOf value
    return elements ++ (← concat rest)

/-- Keys and values in turn; a last key without a value is dropped. -/
def pairs : List Value → List (Value × Value)
  | k :: v :: rest => (k, v) :: pairs rest
  | _ => []

/-- The map of keys and values in turn. -/
def hashMap (args : List Value) : Except Fault Value :=
  if args.length % 2 = 0 then .ok (Value.mapOf (pairs args))
  else .error (.argument .oddEntries)

/-! ### Names -/

/-- The text of a value that names something. -/
def nameText (value : Value) : Except Fault String :=
  match value with
  | .string s | .symbol s | .keyword s => .ok s
  | other => .error (.wrongType .string other)

/-- The text of a name with an optional qualifier. -/
def qualifiedText (qualifier name : Value) : Except Fault String :=
  match qualifier with
  | .nil => nameText name
  | qualifier => do
    let qualifier ← nameText qualifier
    return qualifier ++ "/" ++ (← nameText name)

/-- The name of a symbol or keyword without its qualifier; a string is its own name. -/
def baseName (value : Value) : Except Fault Value :=
  match value with
  | .string s => .ok (.string s)
  | .symbol s | .keyword s => .ok (.string (Name.parse s).base)
  | other => .error (.wrongType .nameable other)

/-- The qualifier of a symbol or keyword. -/
def qualifierOf (value : Value) : Except Fault Value :=
  match value with
  | .symbol s | .keyword s =>
    match (Name.parse s).qualifier with
    | some qualifier => .ok (.string qualifier)
    | none => .ok .nil
  | other => .error (.wrongType .symbolOrKeyword other)

/-- How a value joins a longer text: strings as they are, and nothing for `nil`. -/
def joinedText : Value → String
  | .nil => ""
  | .string s => s
  | other => other.display

/-- The start of generated names. -/
def gensymStart (value : Value) : Except Fault String :=
  match value with
  | .string s | .symbol s => .ok s
  | other => .error (.wrongType .stringPrefix other)

/-! ### Calls -/

/-- A call that needs no machine. -/
def answer (result : Except Fault Value) : Option (Evaluation Value) :=
  some (lift result)

/-- A yes or no. -/
def decision (result : Bool) : Option (Evaluation Value) :=
  answer (.ok (.boolean result))

/-- The call of a library procedure, if the arguments are enough for it. The arity of a procedure
admits only numbers of arguments that are. The procedure that spreads a sequence over a call is
given the way to call. -/
def call? (applyTo : Value → List Value → Evaluation Value) (procedure : Builtin)
    (args : List Value) : Option (Evaluation Value) :=
  match procedure, args with
  | .list, args => answer (.ok (.list args))
  | .vector, args => answer (.ok (.vector args))
  | .hashMap, args => answer (hashMap args)
  | .hashSet, args => answer (.ok (Value.setOf args))
  | .first, x :: _ => answer ((elementsOf x).map fun es => es.headD .nil)
  | .second, x :: _ => answer ((elementsOf x).map fun es => es[1]?.getD .nil)
  | .rest, x :: _ => answer ((elementsOf x).map fun es => .list es.tail)
  | .next, x :: _ =>
    answer ((elementsOf x).map fun es => if es.length ≤ 1 then .nil else .list es.tail)
  | .cons, x :: xs :: _ => answer ((elementsOf xs).map fun es => .list (x :: es))
  | .conj, x :: additions => answer (conj x additions)
  | .concat, args => answer ((concat args).map .list)
  | .count, x :: _ =>
    answer ((elementsOf x).map fun es => .integer (Int64.ofNat es.length))
  | .nth, x :: index :: rest => answer (nth x index rest.head?)
  | .isEmpty, x :: _ => answer ((elementsOf x).map fun es => .boolean es.isEmpty)
  | .isList, x :: _ | .isSeq, x :: _ => decision (x matches .list _)
  | .isVector, x :: _ => decision (x matches .vector _)
  | .isMap, x :: _ => decision (x matches .map _)
  | .isSet, x :: _ => decision (x matches .set _)
  | .isSymbol, x :: _ => decision (x matches .symbol _)
  | .isKeyword, x :: _ => decision (x matches .keyword _)
  | .isString, x :: _ => decision (x matches .string _)
  | .isNumber, x :: _ => decision x.isNumber
  | .isNil, x :: _ => decision (x matches .nil)
  | .symbol, [x] => answer ((nameText x).map .symbol)
  | .symbol, [qualifier, x] => answer ((qualifiedText qualifier x).map .symbol)
  | .keyword, [x] => answer ((nameText x).map .keyword)
  | .keyword, [qualifier, x] => answer ((qualifiedText qualifier x).map .keyword)
  | .name, x :: _ => answer (baseName x)
  | .qualifier, x :: _ => answer (qualifierOf x)
  | .str, args => answer (.ok (.string (String.join (args.map joinedText))))
  | .apply, f :: args =>
    match args.getLast? with
    | some last => some do
      let spread ← lift (elementsOf last)
      applyTo f (args.dropLast ++ spread)
    | none => none
  | .identity, x :: _ => answer (.ok x)
  | .gensym, [] => some do return .symbol (← generateName "G__")
  | .gensym, x :: _ => some do
    let start ← lift (gensymStart x)
    return .symbol (← generateName start)
  | _, _ => none

/-- What programs can call: how a procedure is called, given the way to call values. -/
class Library where
  call (applyTo : Value → List Value → Evaluation Value) (procedure : Builtin)
    (args : List Value) : Evaluation Value

/-- The fault of a call with a wrong number of arguments. -/
def mismatch (procedure : Builtin) (args : List Value) : Evaluation Value :=
  fail (.arityMismatch procedure.bindingName procedure.arity.describe args.length)

/-- Runs the body of a procedure only for a number of arguments that its arity admits. -/
def guarded (body : (Value → List Value → Evaluation Value) → Builtin → List Value →
    Evaluation Value) (applyTo : Value → List Value → Evaluation Value) (procedure : Builtin)
    (args : List Value) : Evaluation Value :=
  if procedure.arity.accepts args.length then body applyTo procedure args
  else mismatch procedure args

/-- The core library. -/
instance Library.core : Library where
  call := guarded fun applyTo procedure args =>
    (call? applyTo procedure args).getD (mismatch procedure args)

theorem Library.core_call (applyTo : Value → List Value → Evaluation Value) (procedure : Builtin)
    (args : List Value) :
    Library.call applyTo procedure args =
      if procedure.arity.accepts args.length then
        (call? applyTo procedure args).getD (mismatch procedure args)
      else mismatch procedure args :=
  rfl

/-! ### The machine at the start -/

def coreNamespace : String := "ws.core"

/-- The bindings of a library procedure. -/
def builtinBindings (target : Target) (procedure : Builtin) : List (Variable × Value) :=
  let name := procedure.bindingName
  [((Name.unqualified name).toVariable target, .builtin procedure),
    ((Name.mk (some coreNamespace) name).toVariable target, .builtin procedure)]

/-- A machine with the core library. -/
def Machine.new (target : Target) : Machine where
  globals := Builtin.all.flatMap (builtinBindings target)
  gensyms := 0
  closures := 0

end ScriptLisp.Eval
