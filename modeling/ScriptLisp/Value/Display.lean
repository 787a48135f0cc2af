import ScriptLisp.Decimal.Text
import ScriptLisp.Integer
import ScriptLisp.Text.Printable
import ScriptLisp.Value.Basic

/-!
Values as text: data looks like the form it came from, and a procedure shows its name.
-/

namespace ScriptLisp

/-- The name a library procedure is bound to. -/
def Builtin.bindingName : Builtin → String
  | list => "list"
  | vector => "vector"
  | hashMap => "hash-map"
  | hashSet => "hash-set"
  | first => "first"
  | second => "second"
  | rest => "rest"
  | next => "next"
  | cons => "cons"
  | conj => "conj"
  | concat => "concat"
  | count => "count"
  | nth => "nth"
  | isEmpty => "empty?"
  | isList => "list?"
  | isVector => "vector?"
  | isMap => "map?"
  | isSet => "set?"
  | isSymbol => "symbol?"
  | isKeyword => "keyword?"
  | isString => "string?"
  | isNumber => "number?"
  | isNil => "nil?"
  | isSeq => "seq?"
  | symbol => "symbol"
  | keyword => "keyword"
  | name => "name"
  | qualifier => "namespace"
  | str => "str"
  | apply => "apply"
  | identity => "identity"
  | gensym => "gensym"

namespace Value

/-- The characters a procedure is displayed with. -/
def procedureChars (name : String) : List Char :=
  ("#<procedure " ++ name ++ ">").toList

mutual

def chars : Value → List Char
  | .nil => ['n', 'i', 'l']
  | .boolean true => ['t', 'r', 'u', 'e']
  | .boolean false => ['f', 'a', 'l', 's', 'e']
  | .integer n => Integer.chars n.toInt
  | .rational n d => Integer.chars n.toInt ++ '/' :: Integer.chars d.toInt
  | .decimal d => (Decimal.text d).toList
  | .string s => Text.quoted s.toList
  | .symbol s => s.toList
  | .keyword k => ':' :: k.toList
  | .list es => '(' :: elementChars es ++ [')']
  | .vector es => '[' :: elementChars es ++ [']']
  | .set es => '#' :: '\x7b' :: elementChars es ++ ['\x7d']
  | .map es => '\x7b' :: entryChars es ++ ['\x7d']
  | .builtin b => procedureChars b.bindingName
  | .closure _ _ _ => procedureChars "fn"

def elementChars : List Value → List Char
  | [] => []
  | [e] => chars e
  | e :: es => chars e ++ ' ' :: elementChars es

def entryChars : List (Value × Value) → List Char
  | [] => []
  | [(k, v)] => chars k ++ ' ' :: chars v
  | (k, v) :: es => chars k ++ ' ' :: chars v ++ ',' :: ' ' :: entryChars es

end

def display (value : Value) : String :=
  String.ofList value.chars

end Value

end ScriptLisp
