import ScriptLisp.Text.Basic

/-!
Why text could not be read. A complaint names a place and what was expected there or which
construct was being read; the complaints of one failure form a trail from the inside out. A failure
that reaches the end of the text only asks for more of it.
-/

namespace ScriptLisp.Reader

/-- The constructs that a failure can lie in. -/
inductive Construct where
  | form
  | compoundForm
  | simpleForm
  | list
  | vector
  | map
  | set
  | quotation
  | string
deriving DecidableEq, Repr

def Construct.name : Construct → String
  | .form => "form"
  | .compoundForm => "compound form"
  | .simpleForm => "simple form"
  | .list => "list"
  | .vector => "vector"
  | .map => "map"
  | .set => "set"
  | .quotation => "quotation"
  | .string => "string"

/-- What a complaint is about. -/
inductive Expectation where
  /-- This character should have come next. -/
  | character (c : Char)
  /-- The failure lies in this construct, which starts here. -/
  | inside (construct : Construct)
  /-- The text should have ended here. -/
  | endOfText
deriving DecidableEq, Repr

/-- A complaint about the place where `rest` starts. -/
structure Complaint where
  rest : List Char
  expectation : Expectation
deriving DecidableEq, Repr

/-- The complaints of one failure, innermost first. -/
abbrev Trail := List Complaint

inductive Failure where
  /-- The text ended inside a form; more text could complete it. -/
  | incomplete
  /-- The text cannot be read, whatever follows. -/
  | malformed (text : List Char) (trail : Trail)
deriving DecidableEq, Repr

/-- A failure with a complaint at the end of the text asks for more. -/
def Failure.ofTrail (text : List Char) (trail : Trail) : Failure :=
  if trail.any (·.rest.isEmpty) then .incomplete else .malformed text trail

/-- A place in a text: the number of its line, the part of the line before it, and the whole
line. -/
structure Place where
  number : Nat
  before : List Char
  line : List Char

/-- The place where `rest`, a tail of the text, starts. -/
def Place.of (text rest : List Char) : Place :=
  let consumed := text.take (text.length - rest.length)
  let before := (consumed.reverse.takeWhile (· != '\n')).reverse
  { number := consumed.count '\n' + 1
    before
    line := Text.trimEnd (before ++ rest.takeWhile (· != '\n')) }

/-- A mark under the place, whose column is counted in bytes. -/
def Place.caret (place : Place) : String :=
  let column := (String.ofList place.before).utf8ByteSize
  String.ofList (List.replicate column ' ' ++ ['^'])

def Complaint.message (text : List Char) (index : Nat) (complaint : Complaint) : String :=
  let place := Place.of text complaint.rest
  let start := toString index ++ ": at line " ++ toString place.number
  let shown := "\n" ++ String.ofList place.line ++ "\n" ++ place.caret ++ "\n"
  match complaint.expectation with
  | .character c =>
    let found :=
      match complaint.rest with
      | d :: _ => "found " ++ String.singleton d
      | [] => "got end of input"
    start ++ ":" ++ shown ++ "expected '" ++ String.singleton c ++ "', " ++ found ++ "\n\n"
  | .inside construct => start ++ ", in " ++ construct.name ++ ":" ++ shown ++ "\n"
  | .endOfText => start ++ ", in Eof:" ++ shown ++ "\n"

def Failure.message : Failure → String
  | .incomplete => "Incomplete Input"
  | .malformed text trail =>
    "ReadError: " ++ String.join (trail.mapIdx (Complaint.message text))

end ScriptLisp.Reader
