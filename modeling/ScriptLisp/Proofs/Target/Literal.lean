import ScriptLisp.Proofs.Target.JavaScriptData
import ScriptLisp.Proofs.Target.JavaScriptText
import ScriptLisp.Proofs.Target.RubyData
import ScriptLisp.Target.Generate

/-!
String literals cannot be escaped from. A target reads a literal in single quotes character by
character: a quote ends it, a backslash gives the next character another meaning, and any other
character stands for itself if it may stand there at all. Whatever a string holds, its literal is
read back as this string, and reading stops right behind the literal.

* `LiteralReader`: what a target takes escapes and other characters of a literal for.
* `readLiteral?_quoted`: the literal of a string is that string, whatever follows.
-/

namespace ScriptLisp.Target

open Delimiters

/-! ### Reading literals -/

/-- How the inside of a literal in single quotes is read. -/
structure LiteralReader where
  /-- What a backslash and the character after it stand for, if they may stand together. -/
  escape? : Char → Option (List Char)
  /-- Whether a character that is no quote and no backslash may stand for itself. -/
  verbatim : Char → Bool

namespace LiteralReader

/-- The characters that a literal stands for up to its closing quote, and what follows it. -/
def body? (reader : LiteralReader) : List Char → Option (List Char × List Char)
  | [] => none
  | '\'' :: rest => some ([], rest)
  | '\\' :: c :: rest => do
    let meaning ← reader.escape? c
    let (body, rest) ← reader.body? rest
    return (meaning ++ body, rest)
  | c :: rest => do
    let (body, rest) ← reader.body? rest
    if reader.verbatim c then return (c :: body, rest) else none

/-- The escapes of JavaScript that literals are written with. A line break in a literal is an
error, and so is any escape that no literal needs. -/
def javascript : LiteralReader where
  escape? c := if c ∈ ['\\', '\'', 'n', 'r', 't'] then some (JavaScript.escaped c) else none
  verbatim c := !isLineBreak c

/-- In Ruby only quotes and backslashes are escaped; any other character keeps the backslash
before it, and everything may stand for itself. -/
def ruby : LiteralReader where
  escape? c := some (Ruby.escaped c)
  verbatim _ := true

/-- A character is written as one that stands for it. -/
def Reads (reader : LiteralReader) (c : Char) (written : List Char) : Prop :=
  (written = [c] ∧ c ≠ '\'' ∧ c ≠ '\\' ∧ reader.verbatim c = true) ∨
    ∃ e, written = ['\\', e] ∧ reader.escape? e = some [c]

/-- A text whose characters are written one by one is read back up to the closing quote. -/
theorem body?_flatMap {reader : LiteralReader} {writeChar : Char → List Char}
    (each : ∀ c, reader.Reads c (writeChar c)) (text rest : List Char) :
    reader.body? (text.flatMap writeChar ++ '\'' :: rest) = some (text, rest) := by
  induction text with
  | nil => rfl
  | cons c text ih =>
    rw [List.flatMap_cons, List.append_assoc]
    rcases each c with ⟨plain, noQuote, noBackslash, allowed⟩ | ⟨e, escape, means⟩
    · rw [plain, List.singleton_append, body?, ih]
      · simp [allowed]
      · exact fun same => absurd same noQuote
      · exact fun _ _ same => absurd same noBackslash
    · rw [escape, List.cons_append, List.cons_append, List.nil_append, body?, means, ih]
      rfl

theorem reads_javascript (c : Char) : javascript.Reads c (JavaScript.quotedChar c) := by
  fun_cases JavaScript.quotedChar c with
  | case1 => exact .inr ⟨'\\', rfl, rfl⟩
  | case2 => exact .inr ⟨'\'', rfl, rfl⟩
  | case3 => exact .inr ⟨'n', rfl, rfl⟩
  | case4 => exact .inr ⟨'r', rfl, rfl⟩
  | case5 => exact .inr ⟨'t', rfl, rfl⟩
  | case6 _ backslash quote lineFeed carriageReturn tab =>
    have noBreak : isLineBreak c = false := by
      rw [isLineBreak, beq_false_of_ne lineFeed, beq_false_of_ne carriageReturn, Bool.or_false]
    exact .inl ⟨rfl, quote, backslash, congrArg (!·) noBreak⟩

theorem reads_ruby (c : Char) : ruby.Reads c (Ruby.quotedChar c) := by
  rcases Ruby.unescapes c with ⟨plain, noQuote, noBackslash⟩ | ⟨e, escape, means⟩
  · exact .inl ⟨plain, noQuote, noBackslash, rfl⟩
  · exact .inr ⟨e, escape, congrArg some means⟩

end LiteralReader

/-- How a target reads literals in single quotes. -/
def literalReader : Target → LiteralReader
  | javascript => .javascript
  | ruby => .ruby

/-- The string that a text starts with as a literal in single quotes, and what follows it. -/
def readLiteral? (target : Target) (text : String) : Option (String × String) :=
  match text.toList with
  | '\'' :: rest =>
    (target.literalReader.body? rest).map fun read => (String.ofList read.1, String.ofList read.2)
  | _ => none

/-! ### Quoted strings -/

/-- The literal of a string is read as exactly this string, and exactly what follows it is left, in
every target; in JavaScript it also stands on one line. -/
theorem readLiteral?_quoted (target : Target) (text rest : String) :
    target.readLiteral? (target.quoted text ++ rest) = some (text, rest) ∧
      OnOneLine (javascript.quoted text) := by
  constructor
  · cases target with
    | javascript =>
      have body := LiteralReader.body?_flatMap LiteralReader.reads_javascript text.toList
        rest.toList
      simp [readLiteral?, quoted, JavaScript.quoted, literalReader, body]
    | ruby =>
      have body := LiteralReader.body?_flatMap LiteralReader.reads_ruby text.toList rest.toList
      simp [readLiteral?, quoted, Ruby.quoted, literalReader, body]
  · exact onOneLine_of_scan rfl (JavaScript.quoted_closed .statements text)

/-- A string that ends in a backslash and holds what looks like the end of its literal. -/
example : ruby.readLiteral? "'it\\'); \\\\' + x" = some ("it'); \\", " + x") := by
  decide +kernel

end ScriptLisp.Target
