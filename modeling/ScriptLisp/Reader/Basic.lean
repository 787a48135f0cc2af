import ScriptLisp.Reader.Atom
import ScriptLisp.Reader.Complaint

/-!
Reading program text. White space, commas, comments and discarded forms separate forms. A construct
that does not match leaves the text to the next alternative; once a bracket or a quote is open, its
missing partner is a failure that nothing can mend.

The functions recurse on a bound that shrinks with every call. `bound` of a text is enough for all
of it, since every form and every separator takes at least one character.
-/

namespace ScriptLisp.Reader

/-- What an attempt to read at some place gives. -/
inductive Outcome (α : Type) where
  | matched (value : α) (rest : List Char)
  /-- The text here is nothing of this kind. -/
  | mismatch
  /-- The text started well and cannot be continued. -/
  | failed (trail : Trail)
deriving Repr

/-- A comma separates forms like white space. -/
def isSeparator (c : Char) : Bool :=
  Text.isBlank c || c == ','

/-- The complaints that a compound construct adds to a failure inside it. -/
def compoundTrail (construct : Construct) (start : List Char) : Trail :=
  [⟨start, .inside construct⟩, ⟨start, .inside .compoundForm⟩, ⟨start, .inside .form⟩]

/-- The complaints that a string adds to its failure. -/
def stringTrail (start : List Char) : Trail :=
  [⟨start, .inside .string⟩, ⟨start, .inside .simpleForm⟩, ⟨start, .inside .form⟩]

/-- Expects the closing bracket of a construct after its elements. -/
def closing (construct : Construct) (close : Char) (start : List Char) :
    Except Trail (List Form × List Char) → Outcome (List Form)
  | .error trail => .failed (trail ++ compoundTrail construct start)
  | .ok (elements, rest) =>
    match rest with
    | c :: after =>
      if c = close then .matched elements after
      else .failed (⟨rest, .character close⟩ :: compoundTrail construct start)
    | [] => .failed (⟨rest, .character close⟩ :: compoundTrail construct start)

/-- Makes a form of the elements of a compound construct. -/
def Outcome.map {α β : Type} (f : α → β) : Outcome α → Outcome β
  | .matched value rest => .matched (f value) rest
  | .mismatch => .mismatch
  | .failed trail => .failed trail

/-- A map takes its elements in pairs; an odd number of them is no map. -/
def mapOutcome : Outcome (List Form) → Outcome Form
  | .matched elements rest =>
    if elements.length % 2 = 0 then .matched (.map (Form.pairs elements)) rest else .mismatch
  | .mismatch => .mismatch
  | .failed trail => .failed trail

/-- A string after its opening quote. -/
def stringOutcome (start body : List Char) : Outcome Form :=
  match stringBody body with
  | .ok (text, rest) => .matched (.string (String.ofList text)) rest
  | .error place => .failed (⟨place, .character '"'⟩ :: stringTrail start)

/-- An atom that is no string. -/
def atomOutcome (cs : List Char) : Outcome Form :=
  match atom? cs with
  | some (form, rest) => .matched form rest
  | none => .mismatch

mutual

/-- Skips white space, comments and discarded forms. A discard mark that no form follows is not
skipped. -/
def skip : Nat → List Char → Except Trail (List Char)
  | 0, cs => .ok cs
  | _ + 1, [] => .ok []
  | bound + 1, ';' :: cs => skip bound (cs.dropWhile (· != '\n'))
  | bound + 1, '#' :: '_' :: cs =>
    match form bound cs with
    | .matched _ rest => skip bound rest
    | .mismatch => .ok ('#' :: '_' :: cs)
    | .failed trail => .error trail
  | bound + 1, c :: cs => if isSeparator c then skip bound cs else .ok (c :: cs)

/-- Reads a form after any separators. -/
def form : Nat → List Char → Outcome Form
  | 0, _ => .mismatch
  | bound + 1, cs =>
    match skip bound cs with
    | .ok rest => datum bound rest
    | .error trail => .failed trail

/-- Reads a form that starts right here. -/
def datum : Nat → List Char → Outcome Form
  | 0, _ => .mismatch
  | bound + 1, '(' :: cs => (closing .list ')' ('(' :: cs) (elements bound cs)).map .list
  | bound + 1, '[' :: cs => (closing .vector ']' ('[' :: cs) (elements bound cs)).map .vector
  | bound + 1, '\x7b' :: cs =>
    mapOutcome (closing .map '\x7d' ('\x7b' :: cs) (elements bound cs))
  | bound + 1, '#' :: '\x7b' :: cs =>
    (closing .set '\x7d' ('#' :: '\x7b' :: cs) (elements bound cs)).map Form.setOf
  | bound + 1, '\'' :: cs =>
    match form bound cs with
    | .matched quoted rest => .matched (Form.quote quoted) rest
    | .mismatch => .mismatch
    | .failed trail => .failed (trail ++ compoundTrail .quotation ('\'' :: cs))
  | _ + 1, '"' :: cs => stringOutcome ('"' :: cs) cs
  | _ + 1, cs => atomOutcome cs

/-- Reads forms as long as there are any, and gives the text after the separators that follow
them. -/
def elements : Nat → List Char → Except Trail (List Form × List Char)
  | 0, cs => .ok ([], cs)
  | bound + 1, cs =>
    match skip bound cs with
    | .error trail => .error trail
    | .ok rest =>
      match datum bound rest with
      | .mismatch => .ok ([], rest)
      | .failed trail => .error trail
      | .matched first rest =>
        match elements bound rest with
        | .error trail => .error trail
        | .ok (others, rest) => .ok (first :: others, rest)

end

/-- A bound that lets every call for a text go on: no two calls in a row keep the text as long as
it was. -/
def bound (cs : List Char) : Nat :=
  2 * cs.length + 4

/-- All forms of a text. -/
def readChars (cs : List Char) : Except Failure (List Form) :=
  match elements (bound cs) cs with
  | .ok (forms, []) => .ok forms
  | .ok (_, rest) => .error (.ofTrail cs [⟨rest, .endOfText⟩])
  | .error trail => .error (.ofTrail cs trail)

end ScriptLisp.Reader

namespace ScriptLisp

/-- Reads all forms of a program text. -/
def read (text : String) : Except Reader.Failure (List Form) :=
  Reader.readChars text.toList

end ScriptLisp
