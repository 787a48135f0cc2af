import ScriptLisp.Form.Basic
import ScriptLisp.Decimal.Text
import ScriptLisp.Integer
import ScriptLisp.Text.Alphabetic

/-!
Atoms of the notation: numbers, strings, symbols and keywords. Each function reads one atom at the
start of a text and gives the rest. A number is taken in the first of three notations that matches
and whose parts fit, and it must not run into a symbol; otherwise it is no number, and a sign then
starts a symbol.
-/

namespace ScriptLisp.Reader

/-! ### Symbols -/

/-- The characters besides letters that may start a symbol. -/
def symbolMarks : List Char :=
  ['!', '$', '%', '&', '*', '/', '<', '=', '>', '?', '^', '_', '~', '|', '.', '+', '-', '@', '\\']

def isSymbolStart (c : Char) : Bool :=
  Text.isAlphabetic c || symbolMarks.contains c

/-- Whether a character may stand in a symbol after its start. -/
def isSymbolPart (c : Char) : Bool :=
  isSymbolStart c || c.isDigit || c == '#' || c == ':' || c == '\''

/-- The longest symbol at the start of a text. -/
def identifier? : List Char → Option (String × List Char)
  | c :: cs =>
    if isSymbolStart c then
      some (String.ofList (c :: cs.takeWhile isSymbolPart), cs.dropWhile isSymbolPart)
    else none
  | [] => none

/-- What a symbol's text denotes: three texts are reserved. -/
def symbolForm (text : String) : Form :=
  if text = "true" then .boolean true
  else if text = "false" then .boolean false
  else if text = "nil" then .nil
  else .symbol text

/-- A symbol, or one of the reserved texts. -/
def symbol? (cs : List Char) : Option (Form × List Char) :=
  (identifier? cs).map fun (text, rest) => (symbolForm text, rest)

/-- A keyword: a colon and a symbol right after it. -/
def keyword? : List Char → Option (Form × List Char)
  | ':' :: cs => (identifier? cs).map fun (text, rest) => (.keyword text, rest)
  | _ => none

/-! ### Numbers -/

def digits? (cs : List Char) : Option (List Char × List Char) :=
  match cs.takeWhile Char.isDigit with
  | [] => none
  | ds => some (ds, cs.dropWhile Char.isDigit)

/-- A sign and digits that fit in an integer. -/
def integer? (cs : List Char) : Option (Form × List Char) := do
  let (negative, unsigned) := Integer.sign cs
  let (digits, rest) ← digits? unsigned
  let value ← Integer.ofInt? (Integer.wholeNumber negative digits)
  return (.integer value, rest)

/-- A ratio: a signed and an unsigned integer around a slash. -/
def rational? (cs : List Char) : Option (Form × List Char) := do
  let (negative, unsigned) := Integer.sign cs
  let (above, rest) ← digits? unsigned
  let '/' :: rest := rest | none
  let (below, rest) ← digits? rest
  let numerator ← Integer.ofInt? (Integer.wholeNumber negative above)
  let denominator ← Integer.ofInt? (Integer.wholeNumber false below)
  return (.rational numerator denominator, rest)

/-- The power of ten after a mark, zero and nothing read when there is none. -/
def exponent (cs : List Char) : Int × List Char :=
  match cs with
  | mark :: signed =>
    if mark = 'e' ∨ mark = 'E' then
      let (negative, unsigned) := Integer.sign signed
      match digits? unsigned with
      | some (digits, rest) => (Integer.wholeNumber negative digits, rest)
      | none => (0, cs)
    else (0, cs)
  | [] => (0, cs)

/-- A decimal: digits on both sides of a point and an optional power of ten. -/
def decimal? (cs : List Char) : Option (Form × List Char) := do
  let (negative, unsigned) := Integer.sign cs
  let (whole, rest) ← digits? unsigned
  let '.' :: rest := rest | none
  let (fraction, rest) ← digits? rest
  let (power, rest) := exponent rest
  return (.decimal (Decimal.ofDigits negative (whole ++ fraction) (power - fraction.length)), rest)

/-- Whether a text starts with a character of a symbol. -/
def startsInSymbol : List Char → Bool
  | c :: _ => isSymbolPart c
  | [] => false

/-- A number that does not run into a symbol. -/
def number? (cs : List Char) : Option (Form × List Char) :=
  ((decimal? cs).or ((rational? cs).or (integer? cs))).filter fun (_, rest) =>
    !startsInSymbol rest

/-! ### Strings -/

/-- The character an escape stands for. -/
def unescape? : Char → Option Char
  | 'n' => some '\n'
  | 't' => some '\t'
  | 'r' => some '\r'
  | '"' => some '"'
  | '\\' => some '\\'
  | _ => none

/-- The characters up to the closing quote and what follows it, or the text at the place where a
closing quote was expected. -/
def stringBody : List Char → Except (List Char) (List Char × List Char)
  | [] => .error []
  | '"' :: rest => .ok ([], rest)
  | ['\\'] => .error ['\\']
  | '\\' :: c :: rest =>
    match unescape? c with
    | some d => (stringBody rest).map fun (text, rest) => (d :: text, rest)
    | none => .error ('\\' :: c :: rest)
  | c :: rest => (stringBody rest).map fun (text, rest) => (c :: text, rest)

/-- A number, keyword or symbol, tried in this order. -/
def atom? (cs : List Char) : Option (Form × List Char) :=
  (number? cs).or ((keyword? cs).or (symbol? cs))

end ScriptLisp.Reader
