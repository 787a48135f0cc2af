import ScriptLisp.Proofs.Reader.RoundTrip
import ScriptLisp.Target.Operand

/-!
Texts that can be taken apart again. A way to write things is cut off from what follows if the start
of a longer text can be one of its texts in one way only; what follows must not go on with a number
or a name. Pieces that are cut off stay so in brackets, next to each other and in sequences, so that
a whole notation can be taken apart piece by piece.

* `Stopped`, `Cuts`: what may follow a text, and texts that are cut off from it.
* `Cuts.opened`, `Cuts.closed`, `Cuts.pair`, `sequence_cuts`: how texts are put together.
* `literal?`: what a quoted literal stands for, read from its characters.
* `cuts_integerText`: numbers, with negative ones in parentheses.
-/

namespace ScriptLisp

/-! ### Cutting -/

/-- Characters that go on with a number or a name. -/
def goesOn (c : Char) : Bool :=
  c.isAlphanum || c == '_' || c == '?' || c == '!'

/-- A text that does not go on with a number or a name before it. -/
abbrev Stopped (rest : List Char) : Prop :=
  Reader.StopsAt goesOn rest

/-- The text of `a` is told apart from those of other things, and from what follows it. -/
def Cuts {α : Type} (write : α → List Char) (among : α → Prop) (a : α) : Prop :=
  ∀ b, among b → ∀ rest others, Stopped rest → Stopped others →
    write a ++ rest = write b ++ others → a = b ∧ rest = others

namespace Cuts

variable {α β : Type} {write : α → List Char} {among : α → Prop} {a : α}

/-- Texts that a decoder gives back. -/
theorem of_decoder (decode : List Char → Option (α × List Char))
    (decodes : ∀ a rest, Stopped rest → decode (write a ++ rest) = some (a, rest)) :
    Cuts write among a := by
  intro b _ rest others stopped stoppedToo same
  have decoded := decodes a rest stopped
  rw [same, decodes b others stoppedToo] at decoded
  obtain ⟨rfl, rfl⟩ := Prod.mk.inj (Option.some.inj decoded)
  exact ⟨rfl, rfl⟩

theorem mono {fewer : α → Prop} (cuts : Cuts write among a) (allowed : ∀ b, fewer b → among b) :
    Cuts write fewer a :=
  fun b allowedToo => cuts b (allowed b allowedToo)

/-- Texts after a fixed text. -/
theorem opened (opening : List Char) (cuts : Cuts write among a) :
    Cuts (fun a => opening ++ write a) among a := by
  intro b allowed rest others stopped stoppedToo same
  simp only [List.append_assoc, List.append_cancel_left_eq] at same
  exact cuts b allowed rest others stopped stoppedToo same

/-- Texts before a fixed text. -/
theorem closed (closing : List Char) (ends : ∀ rest, Stopped (closing ++ rest))
    (cuts : Cuts write among a) : Cuts (fun a => write a ++ closing) among a := by
  intro b allowed rest others _ _ same
  simp only [List.append_assoc] at same
  obtain ⟨rfl, follows⟩ := cuts b allowed _ _ (ends rest) (ends others) same
  exact ⟨rfl, List.append_cancel_left follows⟩

/-- Two texts with a fixed text between them. -/
theorem pair (between : List Char) {writeOther : β → List Char} {amongOther : β → Prop} {b : β}
    (ends : ∀ rest, Stopped (between ++ rest)) (first : Cuts write among a)
    (second : Cuts writeOther amongOther b) :
    Cuts (fun pair : α × β => write pair.1 ++ (between ++ writeOther pair.2))
      (fun pair => among pair.1 ∧ amongOther pair.2) (a, b) := by
  rintro ⟨c, d⟩ ⟨allowed, allowedToo⟩ rest others stopped stoppedToo same
  simp only [List.append_assoc] at same
  obtain ⟨rfl, follows⟩ := first c allowed _ _ (ends _) (ends _) same
  obtain ⟨rfl, left⟩ := second d allowedToo rest others stopped stoppedToo
    (List.append_cancel_left follows)
  exact ⟨rfl, left⟩

/-- Texts of what things are turned into. -/
theorem comap {f : β → α} (injective : Function.Injective f) {b : β}
    (cuts : Cuts write among (f b)) : Cuts (fun b => write (f b)) (fun b => among (f b)) b := by
  intro c allowed rest others stopped stoppedToo same
  obtain ⟨turned, left⟩ := cuts (f c) allowed rest others stopped stoppedToo same
  exact ⟨injective turned, left⟩

end Cuts

/-! ### Sequences -/

/-- The texts after the first one, each after a comma, and what closes them. -/
def following (closing : List Char) : List (List Char) → List Char
  | [] => closing
  | text :: rest => ',' :: ' ' :: (text ++ following closing rest)

/-- Texts with commas between them, and what closes them. -/
def sequence (closing : List Char) : List (List Char) → List Char
  | [] => closing
  | text :: rest => text ++ following closing rest

/-- Pairs in a sequence, with a comma inside each, are their members in turn. -/
theorem sequence_pairs {α : Type} (closing : List Char) (first second : α → List Char)
    (items : List α) :
    sequence closing (items.flatMap fun a => [first a, second a]) =
      sequence closing (items.map fun a => first a ++ ([',', ' '] ++ second a)) := by
  have others : ∀ items : List α,
      following closing (items.flatMap fun a => [first a, second a]) =
        following closing (items.map fun a => first a ++ ([',', ' '] ++ second a)) := by
    intro items
    induction items with
    | nil => rfl
    | cons a items ih => simp [following, ih]
  cases items with
  | nil => rfl
  | cons a items => simp [sequence, following, others]

section Sequences

variable {α : Type} {write : α → List Char} {among : α → Prop} {mark : Char} {more : List Char}

theorem stopped_following (bare : goesOn mark = false) (texts : List (List Char))
    (rest : List Char) : Stopped (following (mark :: more) texts ++ rest) := by
  cases texts with
  | nil => exact .cons bare
  | cons text texts => exact .cons rfl

theorem following_cuts (bare : goesOn mark = false) (noComma : mark ≠ ',') {items others : List α}
    (each : ∀ a ∈ items, Cuts write among a) (allowed : ∀ b ∈ others, among b)
    {rest left : List Char}
    (same : following (mark :: more) (items.map write) ++ rest =
      following (mark :: more) (others.map write) ++ left) : items = others ∧ rest = left := by
  induction items generalizing others with
  | nil =>
    cases others with
    | nil => exact ⟨rfl, List.append_cancel_left same⟩
    | cons b others => exact absurd (List.cons.inj same).1 noComma
  | cons a items ih =>
    cases others with
    | nil => exact absurd (List.cons.inj same).1.symm noComma
    | cons b others =>
      obtain ⟨first, eachRest⟩ := List.forall_mem_cons.mp each
      obtain ⟨allowedFirst, allowedRest⟩ := List.forall_mem_cons.mp allowed
      simp only [List.map_cons, following, List.cons_append, List.cons.injEq, true_and,
        List.append_assoc] at same
      obtain ⟨rfl, follows⟩ := first b allowedFirst _ _ (stopped_following bare _ _)
        (stopped_following bare _ _) same
      obtain ⟨rfl, rfl⟩ := ih eachRest allowedRest follows
      exact ⟨rfl, rfl⟩

/-- Sequences are taken apart if their items are, and none of these starts as a sequence closes. -/
theorem sequence_cuts (bare : goesOn mark = false) (noComma : mark ≠ ',') {items others : List α}
    (opens : ∀ a, among a → ∀ rest left, Stopped rest → write a ++ rest ≠ mark :: left)
    (each : ∀ a ∈ items, among a ∧ Cuts write among a) (allowed : ∀ b ∈ others, among b)
    {rest left : List Char}
    (same : sequence (mark :: more) (items.map write) ++ rest =
      sequence (mark :: more) (others.map write) ++ left) : items = others ∧ rest = left := by
  cases items with
  | nil =>
    cases others with
    | nil => exact ⟨rfl, List.append_cancel_left same⟩
    | cons b others =>
      simp only [List.map_cons, sequence, List.append_assoc] at same
      refine absurd same.symm (opens b (allowed b List.mem_cons_self) _ _ ?_)
      exact stopped_following bare _ _
  | cons a items =>
    obtain ⟨⟨allowedItem, first⟩, eachRest⟩ := List.forall_mem_cons.mp each
    cases others with
    | nil =>
      simp only [List.map_cons, sequence, List.append_assoc] at same
      exact absurd same (opens a allowedItem _ _ (stopped_following bare _ _))
    | cons b others =>
      obtain ⟨allowedFirst, allowedRest⟩ := List.forall_mem_cons.mp allowed
      simp only [List.map_cons, sequence, List.append_assoc] at same
      obtain ⟨rfl, follows⟩ := first b allowedFirst _ _ (stopped_following bare _ _)
        (stopped_following bare _ _) same
      obtain ⟨rfl, rfl⟩ := following_cuts bare noComma (fun c member => (eachRest c member).2)
        allowedRest follows
      exact ⟨rfl, rfl⟩

end Sequences

/-- Texts separated by commas, as characters. -/
theorem toList_commas (texts : List String) (closing : List Char) :
    (Target.commas texts).toList ++ closing = sequence closing (texts.map (·.toList)) := by
  induction texts with
  | nil => rfl
  | cons text rest ih =>
    cases rest with
    | nil =>
      rw [Target.commas, String.intercalate_singleton]
      rfl
    | cons next rest =>
      have step : (Target.commas (text :: next :: rest)).toList ++ closing =
          text.toList ++ ',' :: ' ' :: ((Target.commas (next :: rest)).toList ++ closing) := by
        simp [Target.commas, String.intercalate_cons_cons]
      rw [step, ih]
      rfl

/-! ### Quoted literals -/

/-- The characters of a literal in single quotes up to its end, and what follows it. A backslash
gives the next character another meaning. -/
def literalBody (escaped : Char → List Char) : List Char → Option (List Char × List Char)
  | [] => none
  | '\'' :: rest => some ([], rest)
  | '\\' :: c :: rest => (literalBody escaped rest).map fun body => (escaped c ++ body.1, body.2)
  | c :: rest => (literalBody escaped rest).map fun body => (c :: body.1, body.2)

/-- A character is written as it is or by an escape that means it. -/
def Unescapes (escaped : Char → List Char) (quotedChar : Char → List Char) (c : Char) : Prop :=
  (quotedChar c = [c] ∧ c ≠ '\'' ∧ c ≠ '\\') ∨ ∃ e, quotedChar c = ['\\', e] ∧ escaped e = [c]

theorem literalBody_quoted {escaped quotedChar : Char → List Char}
    (each : ∀ c, Unescapes escaped quotedChar c) (text rest : List Char) :
    literalBody escaped (text.flatMap quotedChar ++ '\'' :: rest) = some (text, rest) := by
  induction text with
  | nil => rfl
  | cons c text ih =>
    rw [List.flatMap_cons, List.append_assoc]
    rcases each c with ⟨verbatim, noQuote, noBackslash⟩ | ⟨e, written, means⟩
    · rw [verbatim, List.singleton_append, literalBody, ih]
      · rfl
      · exact fun same => absurd same noQuote
      · exact fun _ _ same => absurd same noBackslash
    · rw [written, List.cons_append, List.cons_append, List.nil_append, literalBody, ih]
      rw [Option.map_some, means]
      rfl

/-- A quoted literal at the start of a text, and what follows it. -/
def literal? (escaped : Char → List Char) : List Char → Option (String × List Char)
  | '\'' :: rest =>
    (literalBody escaped rest).map fun body => (String.ofList body.1, body.2)
  | _ => none

/-- Quoted literals. -/
theorem cuts_quoted {escaped quotedChar : Char → List Char}
    (each : ∀ c, Unescapes escaped quotedChar c) (text : String) :
    Cuts (fun text : String => '\'' :: text.toList.flatMap quotedChar ++ ['\'']) (fun _ => True)
      text := by
  refine .of_decoder (literal? escaped) fun text rest _ => ?_
  have read := literalBody_quoted each text.toList rest
  simp [literal?, read]

/-! ### Numbers -/

theorem integer?_chars (word : Int64) {rest : List Char} (stopped : Stopped rest) :
    Reader.integer? (Integer.chars word.toInt ++ rest) = some (.integer word, rest) := by
  have stops : Reader.StopsAt Char.isDigit rest :=
    stopped.mono fun c digit => by simp [goesOn, Char.isAlphanum, digit]
  have sign := Reader.sign_chars word.toInt rest
  have digits := Reader.digits?_toDigits word.toInt.natAbs rest stops
  simp [Reader.integer?, sign, digits, Integer.wholeNumber_toDigits, Integer.ofInt?_toInt]

/-- Words with their sign. -/
theorem cuts_chars (word : Int64) :
    Cuts (fun word : Int64 => Integer.chars word.toInt) (fun _ => True) word := by
  intro other _ rest others stopped stoppedToo same
  have read := integer?_chars word stopped
  rw [same, integer?_chars other stoppedToo] at read
  cases read
  exact ⟨rfl, rfl⟩

/-- A number that is not negative starts with a digit. -/
theorem chars_of_nonneg {n : Int} (nonneg : 0 ≤ n) :
    ∃ d ds, Integer.chars n = d :: ds ∧ d.isDigit = true := by
  have unsigned : Integer.chars n = Nat.toDigits 10 n.natAbs := by
    rw [Integer.chars, if_neg (by omega)]
  cases written : Nat.toDigits 10 n.natAbs with
  | nil => exact absurd written Nat.toDigits_ne_nil
  | cons d ds =>
    exact ⟨d, ds, unsigned.trans written, Reader.isDigit_toDigits n.natAbs d (by simp [written])⟩

/-- A number as an operand starts with a digit, or with a parenthesis and a minus sign. -/
theorem integerText_cases (word : Int64) :
    (∃ d ds, (Target.integerText word).toList = d :: ds ∧ d.isDigit = true ∧
      (Target.integerText word).toList = Integer.chars word.toInt) ∨
    ∃ ds, (Target.integerText word).toList = '(' :: '-' :: (ds ++ [')']) ∧
      Integer.chars word.toInt = '-' :: ds := by
  unfold Target.integerText
  split
  · rename_i negative
    have below : word.toInt < 0 := Int64.lt_iff_toInt_lt.mp negative
    refine .inr ⟨Nat.toDigits 10 word.toInt.natAbs, ?_, ?_⟩
    · simp [Integer.text, Integer.chars, below]
    · rw [Integer.chars, if_pos below]
  · rename_i negative
    have nonneg : 0 ≤ word.toInt :=
      Int.not_lt.mp fun below => negative (Int64.lt_iff_toInt_lt.mpr below)
    obtain ⟨d, ds, written, digit⟩ := chars_of_nonneg nonneg
    have verbatim : (Integer.text word).toList = Integer.chars word.toInt := String.toList_ofList
    exact .inl ⟨d, ds, verbatim.trans written, digit, verbatim⟩

/-- Numbers as operands. -/
theorem cuts_integerText (word : Int64) :
    Cuts (fun word => (Target.integerText word).toList) (fun _ => True) word := by
  intro other allowed rest others stopped stoppedToo same
  dsimp only at same
  rcases integerText_cases word with ⟨d, ds, starts, digit, verbatim⟩ | ⟨ds, written, signed⟩
  · rcases integerText_cases other with ⟨_, _, _, _, verbatimToo⟩ | ⟨es, writtenToo, _⟩
    · rw [verbatim, verbatimToo] at same
      exact cuts_chars word other allowed rest others stopped stoppedToo same
    · rw [starts, writtenToo] at same
      rw [(List.cons.inj same).1] at digit
      cases digit
  · rcases integerText_cases other with ⟨d, es, starts, digit, _⟩ | ⟨es, writtenToo, signedToo⟩
    · rw [starts, written] at same
      rw [← (List.cons.inj same).1] at digit
      cases digit
    · rw [written, writtenToo] at same
      have inside : Integer.chars word.toInt ++ (')' :: rest) =
          Integer.chars other.toInt ++ (')' :: others) := by
        simpa [signed, signedToo] using same
      obtain ⟨rfl, follows⟩ := cuts_chars word other allowed _ _ (.cons rfl) (.cons rfl) inside
      exact ⟨rfl, (List.cons.inj follows).2⟩

end ScriptLisp
