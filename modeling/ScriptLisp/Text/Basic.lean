/-!
Sets of characters given by ranges of code points, in which the tables of character properties are
written; white space, and text without the white space around it. The reader also treats a comma as
space; that is a rule of the notation and stands with the reader.
-/

namespace ScriptLisp.Text

/-! ### Ranges -/

/-- Ranges of code points in ascending order, each with its first and last member. -/
abbrev Ranges := List (Nat × Nat)

/-- Whether some range holds the character. The ranges ascend, so the search ends at the first one
that starts after the character. -/
def Ranges.contains : Ranges → Char → Bool
  | [], _ => false
  | (first, last) :: rest, c =>
    if c.toNat < first then false
    else if c.toNat ≤ last then true
    else Ranges.contains rest c

/-! ### White space -/

/-- The ranges of the characters with the Unicode property `White_Space`. -/
def blankRanges : Ranges := [
  (0x9, 0xd), (0x20, 0x20), (0x85, 0x85), (0xa0, 0xa0), (0x1680, 0x1680), (0x2000, 0x200a),
  (0x2028, 0x2029), (0x202f, 0x202f), (0x205f, 0x205f), (0x3000, 0x3000)]

def isBlank (c : Char) : Bool :=
  blankRanges.contains c

/-- Drops the white space at the end. -/
def trimEnd (cs : List Char) : List Char :=
  (cs.reverse.dropWhile isBlank).reverse

def trim (cs : List Char) : List Char :=
  trimEnd (cs.dropWhile isBlank)

end ScriptLisp.Text
