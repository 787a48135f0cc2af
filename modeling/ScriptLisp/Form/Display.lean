import ScriptLisp.Form.Basic
import ScriptLisp.Decimal.Text
import ScriptLisp.Integer
import ScriptLisp.Text.Printable

/-!
Forms as text: lists in round and vectors in square brackets, sets and maps in braces, elements
separated by a blank and entries of a map by a comma and a blank.
-/

namespace ScriptLisp.Form

mutual

def chars : Form → List Char
  | .nil => ['n', 'i', 'l']
  | .boolean true => ['t', 'r', 'u', 'e']
  | .boolean false => ['f', 'a', 'l', 's', 'e']
  | .integer n => Integer.chars n.toInt
  | .rational n d => Integer.chars n.toInt ++ '/' :: Integer.chars d.toInt
  | .decimal d => (Decimal.text d).toList
  | .string s => Text.quoted s.toList
  | .symbol s => s.toList
  | .keyword k => ':' :: k.toList
  | .list es => '(' :: elementChars es ++ [')']
  | .vector es => '[' :: elementChars es ++ [']']
  | .set es => '#' :: '\x7b' :: elementChars es ++ ['\x7d']
  | .map es => '\x7b' :: entryChars es ++ ['\x7d']

def elementChars : List Form → List Char
  | [] => []
  | [e] => chars e
  | e :: es => chars e ++ ' ' :: elementChars es

def entryChars : List (Form × Form) → List Char
  | [] => []
  | [(k, v)] => chars k ++ ' ' :: chars v
  | (k, v) :: es => chars k ++ ' ' :: chars v ++ ',' :: ' ' :: entryChars es

end

def display (form : Form) : String :=
  String.ofList form.chars

end ScriptLisp.Form
