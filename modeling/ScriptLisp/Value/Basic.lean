import ScriptLisp.Node.Basic

/-!
Values that programs compute with at compile time. They are the data of forms together with
procedures. Symbols and keywords keep their text as written; maps and sets keep the order in which
entries were added.
-/

namespace ScriptLisp

/-- The procedures of the core library. -/
inductive Builtin where
  | list
  | vector
  | hashMap
  | hashSet
  | first
  | second
  | rest
  | next
  | cons
  | conj
  | concat
  | count
  | nth
  | isEmpty
  | isList
  | isVector
  | isMap
  | isSet
  | isSymbol
  | isKeyword
  | isString
  | isNumber
  | isNil
  | isSeq
  | symbol
  | keyword
  | name
  | qualifier
  | str
  | apply
  | identity
  | gensym
deriving DecidableEq, Repr

/-- A value. -/
inductive Value where
  | nil
  | boolean (value : Bool)
  | integer (value : Int64)
  | rational (numerator denominator : Int64)
  | decimal (value : Float)
  | string (text : String)
  | symbol (name : String)
  | keyword (name : String)
  | list (elements : List Value)
  | vector (elements : List Value)
  | set (elements : List Value)
  | map (entries : List (Value × Value))
  | builtin (procedure : Builtin)
  /-- A function with the bindings it was created under. Each creation has an identity of its
  own. -/
  | closure (identity : Nat) (function : Lambda) (environment : List (Variable × Value))
deriving Inhabited

/-- The bindings of variables, the latest first. -/
abbrev Environment := List (Variable × Value)

namespace Environment

/-- Binds a variable, in place of an earlier binding. -/
def set (environment : Environment) (name : Variable) (value : Value) : Environment :=
  (name, value) :: environment.filter (·.1 != name)

/-- Sets variables to values in turn, as far as both go; of equal variables the last one counts. -/
def setAll (environment : Environment) : List Variable → List Value → Environment
  | name :: names, value :: values => setAll (environment.set name value) names values
  | _, _ => environment

end Environment

namespace Value

/-- Everything but `nil` and `false` is true. -/
def isTruthy : Value → Bool
  | .nil => false
  | .boolean b => b
  | _ => true

/-- The name of the type of a value. -/
def typeName : Value → String
  | .nil => "nil"
  | .boolean _ => "boolean"
  | .integer _ => "integer"
  | .rational _ _ => "rational"
  | .decimal _ => "decimal"
  | .string _ => "string"
  | .symbol _ => "symbol"
  | .keyword _ => "keyword"
  | .list _ => "list"
  | .vector _ => "vector"
  | .set _ => "set"
  | .map _ => "map"
  | .builtin _ | .closure _ _ _ => "procedure"

def isNumber : Value → Bool
  | .integer _ | .rational _ _ | .decimal _ => true
  | _ => false

/-- The elements of a value seen as a sequence: a map has its entries as vectors of two, a string
its characters, and `nil` has none. -/
def elements? : Value → Option (List Value)
  | .nil => some []
  | .list es | .vector es | .set es => some es
  | .map entries => some (entries.map fun (k, v) => .vector [k, v])
  | .string s => some (s.toList.map fun c => .string (String.singleton c))
  | _ => none

end Value

end ScriptLisp
