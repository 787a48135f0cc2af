import ScriptLisp.Repl.Command

/-!
Completion of the word before the cursor. At the start of a line with a colon, commands are
completed; elsewhere the words that a session knows. Places in a line are counted in bytes.
-/

namespace ScriptLisp.Repl

/-- The characters that end a word, besides white space. -/
def delimiters : List Char :=
  [',', '(', ')', '[', ']', '\x7b', '\x7d', '\'', '"', '\x60', '~', '@', '^']

/-- Whether a character can be part of a word. -/
def isWordPart (c : Char) : Bool :=
  !(Text.isBlank c || delimiters.contains c)

/-- The characters of a line before an offset in bytes. -/
def before : List Char → Nat → List Char
  | c :: cs, offset => if c.utf8Size ≤ offset then c :: before cs (offset - c.utf8Size) else []
  | [], _ => []

def byteCount : List Char → Nat
  | [] => 0
  | c :: cs => c.utf8Size + byteCount cs

/-- The longest end of a text that is part of a word. -/
def lastWord (cs : List Char) : List Char :=
  (cs.reverse.takeWhile isWordPart).reverse

/-- The names of the commands, in the order in which they are listed. -/
def commandNames : List String :=
  usages.map fun (usage, _) => String.ofList (usage.toList.takeWhile fun c => !Text.isBlank c)

/-- The commands that continue a text. -/
def matchingCommands (cs : List Char) : List String :=
  if cs.head? == some ':' && !cs.any Text.isBlank then
    commandNames.filter fun name => cs.isPrefixOf name.toList
  else []

/-- The words that mean something in a session: special forms, operators, library procedures and
macros. -/
def knownWords (session : Session) : List String :=
  SpecialForm.all.map (·.name) ++ Operator.names ++ Builtin.all.map (·.bindingName)
    ++ session.registry.map (·.name)

/-- The known words that continue a text, each once and in the order of their bytes. -/
def matchingWords (session : Session) (cs : List Char) : List String :=
  (((knownWords session).filter fun word => cs.isPrefixOf word.toList).eraseDups).mergeSort
    fun a b => a ≤ b

/-- Where a completion starts, in bytes, and what can stand from there to the cursor. -/
structure Completion where
  start : Nat
  candidates : List String
deriving DecidableEq, Repr

/-- Completes the text of a line before the cursor. -/
def complete (session : Session) (line : String) (offset : Nat) : Completion :=
  let text := before line.toList offset
  match matchingCommands text with
  | [] =>
    match lastWord text with
    | [] => ⟨offset, []⟩
    | word => ⟨offset - byteCount word, matchingWords session word⟩
  | commands => ⟨0, commands⟩

end ScriptLisp.Repl
