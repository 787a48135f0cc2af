import ScriptLisp.Intern
import ScriptLisp.Node.Basic
import ScriptLisp.Target.Basic

/-!
How names are spelled in a target. The tokens of the target's own operators stay as they are, its
reserved words have a substitute each, and in every other name the characters that no identifier
may hold are replaced by words between underscores.
-/

namespace ScriptLisp

/-- What replaces a character that identifiers may not hold. -/
def escapes : List (Char × String) :=
  [('!', "__BANG__"), ('$', "__DOLLAR__"), ('#', "__POUND__"), ('-', "__DASH__"),
    ('@', "__AT__"), ('%', "__PER__"), ('^', "__HAT__"), ('*', "__STAR__"), ('>', "__GT__"),
    ('<', "__LT__"), ('?', "__QEST__"), ('~', "__CURL__"), ('|', "__PIPE__"),
    ('+', "__PLUS__"), ('/', "__SLASH__"), ('\\', "__BSLASH__")]

/-- The words of a target that names must not collide with. -/
structure Spelling where
  /-- Reserved words with their substitutes. -/
  reserved : List (String × String)
  /-- Operators that are names of their own. -/
  operatorTokens : List String

namespace Spelling

/-- Whether a name is an operator of the target. -/
def isOperatorToken (spelling : Spelling) (name : String) : Bool :=
  spelling.operatorTokens.contains name

/-- The substitute of a reserved word. -/
def substitute? (spelling : Spelling) (name : String) : Option String :=
  spelling.reserved.lookup name

/-- The characters that stand for one character of a name. -/
def escapeChar (c : Char) : List Char :=
  match escapes.lookup c with
  | some word => word.toList
  | none => [c]

/-- The spelling of a name in the target. -/
def mangle (spelling : Spelling) (name : String) : String :=
  if spelling.isOperatorToken name then name
  else
    match spelling.substitute? name with
    | some word => word
    | none => String.ofList (name.toList.flatMap escapeChar)

def javascript : Spelling where
  reserved := [
    ("arguments", "__ARGUMENTS__"), ("await", "__AWAIT__"), ("break", "__BREAK__"),
    ("case", "__CASE__"), ("catch", "__CATCH__"), ("class", "__CLASS__"), ("const", "__CONST__"),
    ("continue", "__CONTINUE__"), ("debugger", "__DEBUGGER__"), ("default", "__DEFAULT__"),
    ("delete", "__DELETE__"), ("do", "__DO__"), ("else", "__ELSE__"), ("enum", "__ENUM__"),
    ("eval", "__EVAL__"), ("export", "__EXPORT__"), ("extends", "__EXTENDS__"),
    ("false", "__FALSE__"), ("finally", "__FINALLY__"), ("for", "__FOR__"),
    ("function", "__FUNCTION__"), ("if", "__IF__"), ("implements", "__IMPLEMENTS__"),
    ("import", "__IMPORT__"), ("in", "__IN__"), ("interface", "__INTERFACE__"),
    ("let", "__LET__"), ("new", "__NEW__"), ("null", "__NULL__"), ("package", "__PACKAGE__"),
    ("private", "__PRIVATE__"), ("protected", "__PROTECTED__"), ("public", "__PUBLIC__"),
    ("return", "__RETURN__"), ("static", "__STATIC__"), ("super", "__SUPER__"),
    ("switch", "__SWITCH__"), ("throw", "__THROW__"), ("true", "__TRUE__"), ("try", "__TRY__"),
    ("typeof", "__TYPEOF__"), ("var", "__VAR__"), ("void", "__VOID__"), ("while", "__WHILE__"),
    ("with", "__WITH__"), ("yield", "__YIELD__")]
  operatorTokens := [
    "<", "<=", ">", ">=", "%", "&", "|", "^", "<<", ">>", ">>>", "===", "!==", "&&", "||",
    "instanceof", "!", "~", "+", "-", "*", "/"]

def ruby : Spelling where
  reserved := [
    ("BEGIN", "__BEGIN_BLOCK__"), ("END", "__END_BLOCK__"), ("__FILE__", "__SOURCE_FILE__"),
    ("__LINE__", "__SOURCE_LINE__"), ("alias", "__ALIAS__"), ("and", "__AND__"),
    ("begin", "__BEGIN__"), ("break", "__BREAK__"), ("case", "__CASE__"), ("class", "__CLASS__"),
    ("def", "__DEF__"), ("default", "__DEFAULT__"), ("do", "__DO__"), ("else", "__ELSE__"),
    ("elsif", "__ELSIF__"), ("end", "__END__"), ("ensure", "__ENSURE__"), ("false", "__FALSE__"),
    ("for", "__FOR__"), ("if", "__IF__"), ("in", "__IN__"), ("module", "__MODULE__"),
    ("next", "__NEXT__"), ("nil", "__NIL__"), ("not", "__NOT__"), ("or", "__OR__"),
    ("redo", "__REDO__"), ("rescue", "__RESCUE__"), ("retry", "__RETRY__"),
    ("return", "__RETURN__"), ("super", "__SUPER__"), ("then", "__THEN__"), ("true", "__TRUE__"),
    ("undef", "__UNDEF__"), ("unless", "__UNLESS__"), ("until", "__UNTIL__"),
    ("when", "__WHEN__"), ("while", "__WHILE__"), ("yield", "__YIELD__")]
  operatorTokens := [
    "<", "<=", ">", ">=", "%", "&", "|", "^", "<<", ">>", "==", "!=", "&&", "||", "!", "~", "+",
    "-", "*", "/"]

end Spelling

/-- The spelling rules of a target. -/
def Target.spelling : Target → Spelling
  | .javascript => .javascript
  | .ruby => .ruby

/-- The variable a name refers to in a target; qualifier and base are spelled on their own. -/
def Name.toVariable (name : Name) (target : Target) : Variable :=
  ⟨name.qualifier.map target.spelling.mangle, target.spelling.mangle name.base⟩

end ScriptLisp
