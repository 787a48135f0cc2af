/-!
Forms: the data that program text denotes. Macros take forms and give forms. Symbols and keywords
keep their text as written, a keyword without its colon; names are taken apart only when a form is
understood as code.
-/

namespace ScriptLisp

/-- A piece of program text as data. -/
inductive Form where
  | nil
  | boolean (value : Bool)
  | integer (value : Int64)
  /-- A ratio as written, never reduced. -/
  | rational (numerator denominator : Int64)
  | decimal (value : Float)
  | string (text : String)
  | symbol (name : String)
  | keyword (name : String)
  | list (elements : List Form)
  | vector (elements : List Form)
  | set (elements : List Form)
  /-- Keys with their values in the order written; a key may occur again. -/
  | map (entries : List (Form × Form))
deriving Inhabited

namespace Form

def kind : Form → String
  | .nil => "nil"
  | .boolean _ => "boolean"
  | .integer _ => "integer"
  | .rational _ _ => "rational"
  | .decimal _ => "decimal"
  | .string _ => "string"
  | .symbol _ => "symbol"
  | .keyword _ => "keyword"
  | .list _ => "list"
  | .vector _ => "vector"
  | .set _ => "set"
  | .map _ => "map"

mutual

/-- Whether two forms are the same data. Decimals are compared as numbers, so the two zeros are
the same. -/
def same : Form → Form → Bool
  | .nil, .nil => true
  | .boolean a, .boolean b => a == b
  | .integer a, .integer b => a == b
  | .rational a b, .rational c d => a == c && b == d
  | .decimal a, .decimal b => a == b
  | .string a, .string b => a == b
  | .symbol a, .symbol b => a == b
  | .keyword a, .keyword b => a == b
  | .list a, .list b => sameElements a b
  | .vector a, .vector b => sameElements a b
  | .set a, .set b => sameElements a b
  | .map a, .map b => sameEntries a b
  | _, _ => false

/-- Whether two sequences hold the same forms in the same order. -/
def sameElements : List Form → List Form → Bool
  | [], [] => true
  | a :: as, b :: bs => same a b && sameElements as bs
  | _, _ => false

/-- Whether two sequences of entries hold the same keys and values in the same order. -/
def sameEntries : List (Form × Form) → List (Form × Form) → Bool
  | [], [] => true
  | (k, v) :: as, (l, w) :: bs => same k l && same v w && sameEntries as bs
  | _, _ => false

end

/-- The set of some elements: of equal ones the first is kept. -/
def setOf (elements : List Form) : Form :=
  .set (elements.foldl
    (fun kept e => if kept.any (same · e) then kept else kept ++ [e]) [])

/-- The map of a sequence of keys and values in turn; a last key without a value is dropped. -/
def pairs : List Form → List (Form × Form)
  | k :: v :: rest => (k, v) :: pairs rest
  | _ => []

/-- The quotation of a form. -/
def quote (form : Form) : Form :=
  .list [.symbol "quote", form]

/-- The symbol at the head of a list. -/
def head? : Form → Option String
  | .list (.symbol name :: _) => some name
  | _ => none

/-- What follows the head of a list. -/
def operands : Form → List Form
  | .list (_ :: rest) => rest
  | _ => []

end Form

end ScriptLisp
