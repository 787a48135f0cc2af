import ScriptLisp.Proofs.Reader.Grammar

/-!
Reading without a bound. The parts of the notation are read by functions that call each other, and
repetitions go on as long as something matches. Each such function is written here once more without
a bound, with the checks that keep it from running for ever: a repetition gives up when a match left
no shorter text, and so does whatever goes on behind a part that did not leave an end of the text.
-/

namespace ScriptLisp.Reader

/-- The first of two attempts, or the second one where the first does not match. -/
def Outcome.orElse {α : Type} : Outcome α → Outcome α → Outcome α
  | .mismatch, second => second
  | first, _ => first

namespace Guarded

/-! ### Repetitions -/

/-- Reads from each place on as long as there is a match, and gives what was matched and the rest. A
match that leaves no shorter text would repeat for ever, and ends the whole reading. -/
def repeated {α : Type} (cs : List Char)
    (attempt : ∀ place : List Char, place.length ≤ cs.length → Option (Outcome α)) :
    Option (Except Trail (List α × List Char)) := do
  match ← attempt cs (Nat.le_refl _) with
  | .mismatch => return .ok ([], cs)
  | .failed trail => return .error trail
  | .matched value rest =>
    if shorter : rest.length < cs.length then
      let others ← repeated rest fun place within =>
        attempt place (Nat.le_trans within (Nat.le_of_lt shorter))
      return others.map fun (values, after) => (value :: values, after)
    else none
termination_by cs.length

/-! ### Strings -/

/-- A character of a string that stands for itself. -/
def isVerbatim (c : Char) : Bool :=
  c != '"' && c != '\\'

/-- A piece of a string: an escape, or as many characters as stand for themselves. -/
def piece : List Char → Outcome (List Char)
  | '\\' :: c :: cs =>
    match unescape? c with
    | some d => .matched [d] cs
    | none => .mismatch
  | cs =>
    match cs.takeWhile isVerbatim with
    | [] => .mismatch
    | run => .matched run (cs.dropWhile isVerbatim)

/-- The pieces of a string. -/
def pieces (cs : List Char) : Option (Except Trail (List (List Char) × List Char)) :=
  repeated cs fun place _ => some (piece place)

def string (start body : List Char) : Option (Outcome Form) := do
  match ← pieces body with
  | .error trail => return .failed trail
  | .ok (found, rest) =>
    match rest with
    | '"' :: after => return .matched (.string (String.ofList found.flatten)) after
    | _ => return .failed (⟨rest, .character '"'⟩ :: stringTrail start)

/-! ### Separators and forms -/

def blanks (cs : List Char) : Outcome Unit :=
  match cs.takeWhile isSeparator with
  | [] => .mismatch
  | _ => .matched () (cs.dropWhile isSeparator)

/-- A comment up to the end of its line. -/
def comment : List Char → Outcome Unit
  | ';' :: cs => .matched () (cs.dropWhile (· != '\n'))
  | _ => .mismatch

mutual

/-- A discard mark and the form after it. -/
def discard : List Char → Option (Outcome Unit)
  | '#' :: '_' :: cs => do return (← form cs).map fun _ => ()
  | _ => some .mismatch
termination_by cs => 7 * cs.length + 1

/-- One separator of any kind. -/
def separator (cs : List Char) : Option (Outcome Unit) := do
  return (blanks cs).orElse ((comment cs).orElse (← discard cs))
termination_by 7 * cs.length + 2

/-- All separators. -/
def skip (cs : List Char) : Option (Except Trail (List Char)) := do
  let separators ← repeated cs fun place _ => separator place
  return separators.map (·.2)
termination_by 7 * cs.length + 3

def form (cs : List Char) : Option (Outcome Form) := do
  match ← skip cs with
  | .error trail => return .failed trail
  | .ok start => if start.length ≤ cs.length then datum start else none
termination_by 7 * cs.length + 4

def datum : List Char → Option (Outcome Form)
  | '(' :: cs => do return (closing .list ')' ('(' :: cs) (← enclosed cs)).map .list
  | '[' :: cs => do return (closing .vector ']' ('[' :: cs) (← enclosed cs)).map .vector
  | '\x7b' :: cs => do return mapOutcome (closing .map '\x7d' ('\x7b' :: cs) (← enclosed cs))
  | '#' :: '\x7b' :: cs => do
    return (closing .set '\x7d' ('#' :: '\x7b' :: cs) (← enclosed cs)).map Form.setOf
  | '\'' :: cs => do
    match ← form cs with
    | .matched quoted rest => return .matched (Form.quote quoted) rest
    | .mismatch => return .mismatch
    | .failed trail => return .failed (trail ++ compoundTrail .quotation ('\'' :: cs))
  | '"' :: cs => string ('"' :: cs) cs
  | cs => some (atomOutcome cs)
termination_by cs => 7 * cs.length + 0

/-- Forms as long as there are any, and the separators behind them. -/
def forms (cs : List Char) : Option (Except Trail (List Form × List Char)) := do
  match ← repeated cs fun place _ => form place with
  | .error trail => return .error trail
  | .ok (found, rest) =>
    if rest.length ≤ cs.length then return (← skip rest).map fun after => (found, after) else none
termination_by 7 * cs.length + 5

/-- What stands between two brackets. -/
def enclosed (cs : List Char) : Option (Except Trail (List Form × List Char)) := do
  match ← skip cs with
  | .error trail => return .error trail
  | .ok start => if start.length ≤ cs.length then forms start else none
termination_by 7 * cs.length + 6

end

/-- All forms of a text. -/
def readChars (cs : List Char) : Option (Except Failure (List Form)) := do
  match ← forms cs with
  | .ok (found, []) => return .ok found
  | .ok (_, rest) => return .error (.ofTrail cs [⟨rest, .endOfText⟩])
  | .error trail => return .error (.ofTrail cs trail)

/-! ### What repetitions give -/

section Repetition

variable {α : Type} {attempt : List Char → Option (Outcome α)} {cs rest : List Char}

theorem repeated_of_mismatch (here : attempt cs = some .mismatch) :
    (repeated cs fun place _ => attempt place) = some (.ok ([], cs)) := by
  rw [repeated, here]
  rfl

theorem repeated_of_failed {trail : Trail} (here : attempt cs = some (.failed trail)) :
    (repeated cs fun place _ => attempt place) = some (.error trail) := by
  rw [repeated, here]
  rfl

theorem repeated_of_matched {value : α} (here : attempt cs = some (.matched value rest))
    (shorter : rest.length < cs.length) :
    (repeated cs fun place _ => attempt place) =
      (repeated rest fun place _ => attempt place).map fun others =>
        others.map fun (values, after) => (value :: values, after) := by
  rw [repeated, here]
  simp only [Option.bind_eq_bind, Option.bind_some, dif_pos shorter, Option.pure_def,
    Option.map_eq_bind]
  rfl

/-- A repetition that gave up or went on has an attempt at its start. -/
theorem repeated_cases {found : List α}
    (gives : (repeated cs fun place _ => attempt place) = some (.ok (found, rest))) :
    (attempt cs = some .mismatch ∧ found = [] ∧ rest = cs) ∨
      ∃ value start others, attempt cs = some (.matched value start) ∧
        start.length < cs.length ∧ found = value :: others ∧
        (repeated start fun place _ => attempt place) = some (.ok (others, rest)) := by
  cases here : attempt cs with
  | none =>
    rw [repeated, here] at gives
    cases gives
  | some outcome =>
    cases outcome with
    | mismatch =>
      rw [repeated_of_mismatch here] at gives
      cases gives
      exact .inl ⟨rfl, rfl, rfl⟩
    | failed trail =>
      rw [repeated_of_failed here] at gives
      cases gives
    | matched value start =>
      right
      by_cases shorter : start.length < cs.length
      · rw [repeated_of_matched here shorter, Option.map_eq_some_iff] at gives
        obtain ⟨others, repeats, same⟩ := gives
        cases others with
        | error trail => cases same
        | ok others => cases same; exact ⟨value, start, _, rfl, shorter, rfl, repeats⟩
      · rw [repeated, here] at gives
        simp only [Option.bind_eq_bind, Option.bind_some, dif_neg shorter] at gives
        cases gives

/-- A repetition ends where there is no further match, and nowhere behind the text. -/
theorem repeated_ends {found : List α}
    (gives : (repeated cs fun place _ => attempt place) = some (.ok (found, rest))) :
    attempt rest = some .mismatch ∧ rest.length ≤ cs.length := by
  induction found generalizing cs with
  | nil =>
    rcases repeated_cases gives with ⟨here, -, rfl⟩ | ⟨value, start, others, -, -, same, -⟩
    · exact ⟨here, Nat.le_refl _⟩
    · cases same
  | cons value found ih =>
    rcases repeated_cases gives with ⟨-, same, -⟩ | ⟨_, start, others, -, shorter, same, repeats⟩
    · cases same
    · cases same
      obtain ⟨ended, within⟩ := ih repeats
      exact ⟨ended, by omega⟩

end Repetition

end Guarded

end ScriptLisp.Reader
