import ScriptLisp.Value.Basic

/-!
Equality of values. Lists and vectors are equal when their elements are, whatever their kind;
ratios are compared by cross multiplication, sets and maps without regard to order, and procedures
by identity. Sets and maps are kept free of equal elements and keys.
-/

namespace ScriptLisp.Value

mutual

/-- Whether two values are equal. -/
def equal : Value → Value → Bool
  | .nil, .nil => true
  | .boolean a, .boolean b => a == b
  | .integer a, .integer b => a == b
  | .rational a b, .rational c d => a.toInt * d.toInt == c.toInt * b.toInt
  | .decimal a, .decimal b => a == b
  | .string a, .string b => a == b
  | .symbol a, .symbol b => a == b
  | .keyword a, .keyword b => a == b
  | .list a, .list b | .list a, .vector b | .vector a, .list b | .vector a, .vector b =>
    equalElements a b
  | .set a, .set b => a.length == b.length && allIn a b
  | .map a, .map b => a.length == b.length && allEntriesIn a b
  | .builtin a, .builtin b => a == b
  | .closure a _ _, .closure b _ _ => a == b
  | _, _ => false

/-- Whether two sequences are equal place by place. -/
def equalElements : List Value → List Value → Bool
  | [], [] => true
  | a :: as, b :: bs => equal a b && equalElements as bs
  | _, _ => false

/-- Whether every element of the first sequence is in the second. -/
def allIn : List Value → List Value → Bool
  | [], _ => true
  | a :: as, bs => bs.any (equal a) && allIn as bs

/-- Whether every entry of the first sequence is in the second. -/
def allEntriesIn : List (Value × Value) → List (Value × Value) → Bool
  | [], _ => true
  | (k, v) :: as, bs => bs.any (fun (l, w) => equal k l && equal v w) && allEntriesIn as bs

end

/-- Equality that also tells the kinds of sequences apart. -/
def identical (a b : Value) : Bool :=
  a.typeName == b.typeName && equal a b

/-- Puts an entry in a map; an equal key is replaced where it stands. -/
def insertEntry (entries : List (Value × Value)) (key value : Value) : List (Value × Value) :=
  match entries with
  | [] => [(key, value)]
  | (k, v) :: rest =>
    if equal k key then (key, value) :: rest else (k, v) :: insertEntry rest key value

/-- Adds an element to a set unless an equal one is there. -/
def adjoin (elements : List Value) (element : Value) : List Value :=
  if elements.any (equal element) then elements else elements ++ [element]

/-- The map of some entries; later entries replace earlier ones with an equal key. -/
def mapOf (entries : List (Value × Value)) : Value :=
  .map (entries.foldl (fun m (k, v) => insertEntry m k v) [])

/-- The set of some elements; of equal ones the first is kept. -/
def setOf (elements : List Value) : Value :=
  .set (elements.foldl adjoin [])

end ScriptLisp.Value
