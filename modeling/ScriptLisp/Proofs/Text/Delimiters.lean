/-!
Delimiters of program text. A scan goes through a text from left to right, skips string literals
with their escapes, and remembers the closing brackets it waits for. A text is balanced when the
scan ends where it began: outside of literals, with no bracket left open.

The scan can be told to refuse line breaks, or semicolons outside of all brackets. `Moves` says
what a text does to the brackets that are open before it, and composes along `++`; a text that is
balanced by itself changes nothing wherever it is put (`Closed.moves`), and inside brackets even
where its semicolons would be refused outside of them (`Closed.inside`).
-/

namespace ScriptLisp.Delimiters

/-! ### Scanning -/

/-- Where a scan stands. Every place has the closing brackets still to come, the nearest first. -/
inductive Place where
  /-- Outside of literals. -/
  | code (pending : List Char)
  /-- In a literal that this quote opened. -/
  | literal (quote : Char) (pending : List Char)
  /-- In a literal, right after a backslash. -/
  | escape (quote : Char) (pending : List Char)
deriving DecidableEq, Repr

/-- The start of a scan, and the place where balanced text ends. -/
abbrev Place.outermost : Place := .code []

/-- Whether a character opens a string literal; the same one closes it. -/
def isQuote (c : Char) : Bool :=
  c == '\'' || c == '"' || c == '\x60'

def isClosing (c : Char) : Bool :=
  c == ')' || c == ']' || c == '\x7d'

/-- The partner of an opening bracket. -/
def partner? : Char → Option Char
  | '(' => some ')'
  | '[' => some ']'
  | '\x7b' => some '\x7d'
  | _ => none

/-- Whether a character ends a line. -/
def isLineBreak (c : Char) : Bool :=
  c == '\n' || c == '\r'

/-- The place after one more character, unless a bracket is closed that is not the next one to
close. -/
def Place.step : Place → Char → Option Place
  | .code pending, c =>
    if isQuote c then some (.literal c pending)
    else
      match partner? c with
      | some close => some (.code (close :: pending))
      | none =>
        if isClosing c then
          match pending with
          | close :: outer => if c = close then some (.code outer) else none
          | [] => none
        else some (.code pending)
  | .literal quote pending, c =>
    if c = '\\' then some (.escape quote pending)
    else if c = quote then some (.code pending)
    else some (.literal quote pending)
  | .escape quote pending, _ => some (.literal quote pending)

/-- What a text may hold besides balanced brackets and literals. -/
structure Rules where
  /-- Line breaks, also in literals. -/
  lineBreaks : Bool
  /-- Semicolons outside of all brackets and literals. -/
  semicolons : Bool
deriving DecidableEq, Repr

namespace Rules

def free : Rules := ⟨true, true⟩

/-- One line, which may hold several statements. -/
def statements : Rules := ⟨false, true⟩

/-- One line, in which semicolons stand only in brackets. -/
def expression : Rules := ⟨false, false⟩

/-- Anything, but semicolons only in brackets. -/
def operand : Rules := ⟨true, false⟩

/-- Whether a character may stand at a place. -/
def admits (rules : Rules) (place : Place) (c : Char) : Bool :=
  (!isLineBreak c || rules.lineBreaks) &&
    (c != ';' || (match place with
      | .code [] => rules.semicolons
      | _ => true))

end Rules

/-- Where a text leads from a place, if every bracket it closes is the next one to close and the
rules admit all of it. -/
def scan (rules : Rules) : Place → List Char → Option Place
  | place, [] => some place
  | place, c :: cs =>
    if rules.admits place c then (place.step c).bind (scan rules · cs) else none

/-- Every bracket is closed by its own partner, and every string literal is closed. -/
def Balanced (text : String) : Prop :=
  scan .free .outermost text.toList = some .outermost

instance (text : String) : Decidable (Balanced text) :=
  inferInstanceAs (Decidable (_ = _))

/-- No line feed or carriage return anywhere. -/
def OnOneLine (text : String) : Prop :=
  ∀ c ∈ text.toList, isLineBreak c = false

/-- Wherever a semicolon stands, it is in a literal or some bracket is open. -/
def NoOuterSemicolon (text : String) : Prop :=
  ∀ before after, text.toList = before ++ ';' :: after →
    scan .free .outermost before ≠ some .outermost

/-! ### Laws of scans -/

@[simp] theorem scan_nil (rules : Rules) (place : Place) : scan rules place [] = some place := rfl

/-- The second part of a text is scanned from where the first part leads. -/
theorem scan_append (rules : Rules) (place : Place) (a b : List Char) :
    scan rules place (a ++ b) = (scan rules place a).bind (scan rules · b) := by
  induction a generalizing place with
  | nil => rfl
  | cons c cs ih =>
    simp only [List.cons_append, scan]
    split
    · cases place.step c with
      | none => rfl
      | some next => exact ih next
    · rfl

/-- A character that leads on, admitted by the rules. -/
theorem scan_cons_of_step {rules : Rules} {place next : Place} {c : Char} {cs : List Char}
    (admitted : rules.admits place c = true) (step : place.step c = some next) :
    scan rules place (c :: cs) = scan rules next cs := by
  simp [scan, admitted, step]

/-- The first character of a scan that succeeds, and the scan of the others. -/
theorem scan_cons_inv {rules : Rules} {place last : Place} {c : Char} {cs : List Char}
    (scanned : scan rules place (c :: cs) = some last) :
    rules.admits place c = true ∧
      ∃ next, place.step c = some next ∧ scan rules next cs = some last := by
  rw [scan] at scanned
  split at scanned
  · next admitted => exact ⟨admitted, Option.bind_eq_some_iff.mp scanned⟩
  · cases scanned

/-- A place inside further brackets. -/
def Place.under (outer : List Char) : Place → Place
  | .code pending => .code (pending ++ outer)
  | .literal quote pending => .literal quote (pending ++ outer)
  | .escape quote pending => .escape quote (pending ++ outer)

/-- Brackets further out do not matter to a step. -/
theorem Place.step_under (outer : List Char) {place next : Place} {c : Char}
    (step : place.step c = some next) :
    (place.under outer).step c = some (next.under outer) := by
  cases place with
  | code pending =>
    simp only [Place.under, Place.step] at step ⊢
    split at step
    · next quote => cases step; simp [quote]
    · next quote =>
      rw [if_neg quote]
      cases opening : partner? c with
      | some close => simp only [opening] at step ⊢; cases step; rfl
      | none =>
        simp only [opening] at step ⊢
        split at step
        · next closing =>
          rw [if_pos closing]
          cases pending with
          | nil => cases step
          | cons close rest =>
            simp only [List.cons_append] at step ⊢
            split at step
            · next same => cases step; rw [if_pos same]
            · cases step
        · next closing => rw [if_neg closing]; cases step; rfl
  | literal quote pending =>
    simp only [Place.under, Place.step] at step ⊢
    split at step
    · next backslash => cases step; rw [if_pos backslash]
    · next backslash =>
      rw [if_neg backslash]
      split at step
      · next same => cases step; rw [if_pos same]
      · next same => cases step; rw [if_neg same]
  | escape quote pending => cases step; rfl

/-- What is admitted at a place is admitted inside further brackets, where semicolons always
are. -/
theorem Rules.admits_under {rules wider : Rules} {outer : List Char} {place : Place} {c : Char}
    (lines : rules.lineBreaks → wider.lineBreaks)
    (semicolons : (rules.semicolons → wider.semicolons) ∨ outer ≠ [])
    (admitted : rules.admits place c = true) :
    wider.admits (place.under outer) c = true := by
  simp only [Rules.admits, Bool.and_eq_true, Bool.or_eq_true, Bool.not_eq_true'] at admitted ⊢
  refine ⟨admitted.1.imp_right lines, admitted.2.imp_right fun inner => ?_⟩
  cases place with
  | code pending =>
    cases pending with
    | nil =>
      cases outer with
      | nil => exact semicolons.resolve_right (absurd rfl) inner
      | cons _ _ => rfl
    | cons _ _ => rfl
  | literal _ _ => rfl
  | escape _ _ => rfl

/-- A scan that succeeds also succeeds inside further brackets and under wider rules. -/
theorem scan_under {rules : Rules} {place last : Place} {cs : List Char} (wider : Rules)
    (outer : List Char) (scanned : scan rules place cs = some last)
    (lines : rules.lineBreaks → wider.lineBreaks)
    (semicolons : (rules.semicolons → wider.semicolons) ∨ outer ≠ []) :
    scan wider (place.under outer) cs = some (last.under outer) := by
  induction cs generalizing place with
  | nil => cases scanned; rfl
  | cons c cs ih =>
    obtain ⟨admitted, next, step, rest⟩ := scan_cons_inv scanned
    rw [scan_cons_of_step (Rules.admits_under lines semicolons admitted)
      (Place.step_under outer step)]
    exact ih rest

/-- A scan without line breaks meets none. -/
theorem onOneLine_of_scan {rules : Rules} {place last : Place} {cs : List Char}
    (oneLine : rules.lineBreaks = false) (scanned : scan rules place cs = some last) :
    ∀ c ∈ cs, isLineBreak c = false := by
  induction cs generalizing place with
  | nil => simp
  | cons c cs ih =>
    obtain ⟨admitted, next, _, rest⟩ := scan_cons_inv scanned
    simp only [Rules.admits, oneLine, Bool.or_false, Bool.and_eq_true, Bool.not_eq_true']
      at admitted
    exact List.forall_mem_cons.mpr ⟨admitted.1, ih rest⟩

/-- A scan that refuses semicolons outside of all brackets meets none there. -/
theorem noOuterSemicolon_of_refused {rules : Rules} {text : String} {last : Place}
    (refused : rules.semicolons = false)
    (scanned : scan rules .outermost text.toList = some last) : NoOuterSemicolon text := by
  intro before after split outermost
  rw [split, scan_append] at scanned
  obtain ⟨place, first, second⟩ := Option.bind_eq_some_iff.mp scanned
  have same : scan .free .outermost before = some (place.under []) :=
    scan_under .free [] first (fun _ => rfl) (.inl fun _ => rfl)
  rw [outermost] at same
  obtain ⟨admitted, _⟩ := scan_cons_inv second
  cases place with
  | code pending =>
    simp only [Place.under, List.append_nil, Option.some.injEq, Place.code.injEq] at same
    subst same
    simp [Rules.admits, refused] at admitted
  | literal _ _ => cases same
  | escape _ _ => cases same

theorem noOuterSemicolon_of_scan {text : String} {last : Place}
    (scanned : scan .expression .outermost text.toList = some last) : NoOuterSemicolon text :=
  noOuterSemicolon_of_refused rfl scanned

/-- A scan that meets no semicolon outside of all brackets may as well refuse them. -/
theorem scan_operand {place last : Place} {cs : List Char}
    (scanned : scan .free place cs = some last)
    (inside : ∀ before after, cs = before ++ ';' :: after →
      scan .free place before ≠ some .outermost) : scan .operand place cs = some last := by
  induction cs generalizing place with
  | nil => exact scanned
  | cons c cs ih =>
    obtain ⟨admitted, next, step, rest⟩ := scan_cons_inv scanned
    have admits : Rules.operand.admits place c = true := by
      by_cases semicolon : c = ';'
      · subst semicolon
        have within : place ≠ .outermost := by
          rintro rfl
          exact inside [] cs rfl rfl
        unfold Rules.admits
        split
        · exact absurd rfl within
        · rfl
      · simp [Rules.admits, Rules.operand, semicolon]
    rw [scan_cons_of_step admits step]
    refine ih rest fun before after split => ?_
    have earlier := inside (c :: before) after (by rw [split, List.cons_append])
    rwa [scan_cons_of_step admitted step] at earlier

/-! ### What a text does to a place -/

/-- A text that leads from one place to another. -/
def Moves (rules : Rules) (start : Place) (text : String) (finish : Place) : Prop :=
  scan rules start text.toList = some finish

/-- A text that opens and closes its own brackets and literals only. -/
def Closed (rules : Rules) (text : String) : Prop :=
  Moves rules .outermost text .outermost

namespace Moves

variable {rules : Rules} {start middle finish : Place} {a b text : String}

theorem append (first : Moves rules start a middle) (second : Moves rules middle b finish) :
    Moves rules start (a ++ b) finish := by
  unfold Moves at *
  rw [String.toList_append, scan_append, first]
  exact second

/-- A text given by its characters. Both sides of `run` evaluate for fixed characters, also when
the brackets further out are not known. -/
theorem spelled {cs : List Char} (spelling : text = String.ofList cs)
    (run : scan rules start cs = some finish) : Moves rules start text finish := by
  unfold Moves
  rw [spelling, String.toList_ofList]
  exact run

/-- A text that starts with fixed characters. -/
theorem spelledThen {cs : List Char} (spelling : a = String.ofList cs)
    (run : scan rules start cs = some middle) (rest : Moves rules middle b finish) :
    Moves rules start (a ++ b) finish :=
  (spelled spelling run).append rest

end Moves

namespace Closed

variable {rules wider : Rules} {a b text separator : String} {texts : List String}

/-- A closed text leaves all brackets around it as they are. -/
theorem moves (closed : Closed rules text) (pending : List Char) :
    Moves rules (.code pending) text (.code pending) :=
  scan_under rules pending closed id (.inl id)

/-- Inside a bracket, semicolons are no matter. -/
theorem inside {lineBreaks semicolons anywhere : Bool} (closed : Closed ⟨lineBreaks, anywhere⟩ text)
    (close : Char) (pending : List Char) :
    Moves ⟨lineBreaks, semicolons⟩ (.code (close :: pending)) text (.code (close :: pending)) :=
  scan_under ⟨lineBreaks, semicolons⟩ (close :: pending) closed id (.inr (List.cons_ne_nil _ _))

/-- An expression may stand for statements, and both for any text. -/
theorem mono (closed : Closed rules text) (lines : rules.lineBreaks → wider.lineBreaks)
    (semicolons : rules.semicolons → wider.semicolons) : Closed wider text :=
  scan_under wider [] closed lines (.inl semicolons)

theorem empty : Closed rules "" :=
  Moves.spelled rfl rfl

/-- Closed texts one after the other. -/
theorem concat (first : Closed rules a) (second : Closed rules b) : Closed rules (a ++ b) :=
  Moves.append first second

/-- Closed texts with a closed text between them. -/
theorem intercalate (between : Closed rules separator) (each : ∀ t ∈ texts, Closed rules t) :
    Closed rules (separator.intercalate texts) := by
  induction texts with
  | nil =>
    rw [String.intercalate_nil]
    exact empty
  | cons first rest ih =>
    obtain ⟨closedFirst, closedRest⟩ := List.forall_mem_cons.mp each
    cases rest with
    | nil =>
      rw [String.intercalate_singleton]
      exact closedFirst
    | cons second others =>
      rw [String.intercalate_cons_cons]
      exact (closedFirst.concat between).concat (ih closedRest)

/-- Closed texts without anything between them. -/
theorem join (each : ∀ t ∈ texts, Closed rules t) : Closed rules (String.join texts) := by
  induction texts with
  | nil => exact empty
  | cons first rest ih =>
    obtain ⟨closedFirst, closedRest⟩ := List.forall_mem_cons.mp each
    rw [String.join_cons]
    exact closedFirst.concat (ih closedRest)

/-- A string literal is closed if no character of it leaves the literal. -/
theorem singleQuoted {writeChar : Char → List Char} (cs : List Char)
    (each : ∀ c, scan rules (.literal '\'' []) (writeChar c) = some (.literal '\'' [])) :
    Closed rules (String.ofList ('\'' :: cs.flatMap writeChar ++ ['\''])) := by
  have inner : scan rules (.literal '\'' []) (cs.flatMap writeChar) =
      some (.literal '\'' []) := by
    induction cs with
    | nil => rfl
    | cons c cs ih =>
      rw [List.flatMap_cons, scan_append, each]
      exact ih
  refine .spelled rfl ?_
  rw [List.cons_append, scan_cons_of_step rfl rfl, scan_append, inner]
  rfl

theorem free (closed : Closed rules text) : Closed .free text :=
  closed.mono (fun _ => rfl) (fun _ => rfl)

/-- A closed text is balanced, whatever the rules it keeps. -/
theorem balanced (closed : Closed rules text) : Balanced text :=
  closed.free

/-- A closed text holds no semicolon outside of brackets exactly if it is closed where these are
refused. -/
theorem noOuterSemicolon_iff (closed : Closed .free text) :
    NoOuterSemicolon text ↔ Closed .operand text :=
  ⟨scan_operand closed, noOuterSemicolon_of_refused rfl⟩

/-- Of two closed texts one after the other, each keeps to the rules if both together do. -/
theorem concat_iff (first : Closed .free a) :
    Closed rules (a ++ b) ↔ Closed rules a ∧ Closed rules b := by
  refine ⟨fun both => ?_, fun each => each.1.concat each.2⟩
  unfold Closed Moves at both
  rw [String.toList_append, scan_append] at both
  obtain ⟨place, scanned, rest⟩ := Option.bind_eq_some_iff.mp both
  have same : scan .free .outermost a.toList = some (place.under []) :=
    scan_under .free [] scanned (fun _ => rfl) (.inl fun _ => rfl)
  have outermost : place.under [] = .outermost := Option.some.inj (same.symm.trans first)
  cases place with
  | code pending =>
    simp only [Place.under, List.append_nil, Place.code.injEq] at outermost
    subst outermost
    exact ⟨scanned, rest⟩
  | literal _ _ => cases outermost
  | escape _ _ => cases outermost

end Closed

/-! ### Plain text -/

/-- The characters that mean something to a scan outside of literals: quotes, brackets, semicolons
and line breaks. -/
def marks : List Char :=
  ['\'', '"', '\x60', '(', ')', '[', ']', '\x7b', '\x7d', ';', '\n', '\r']

/-- What holds of all characters of a list is decided along the list, not over all characters. -/
instance (priority := 2000) decidableAmong (p : Char → Prop) [DecidablePred p] (cs : List Char) :
    Decidable (∀ c ∈ cs, p c) :=
  List.decidableBAll p cs

/-- Whether a character means nothing to a scan. -/
def isPlain (c : Char) : Bool :=
  !marks.contains c

/-- A class of characters that holds no mark is plain. -/
theorem isPlain_of_class (isMember : Char → Bool) {c : Char}
    (unmarked : ∀ mark ∈ marks, isMember mark = false) (member : isMember c = true) :
    isPlain c = true := by
  simp only [isPlain, Bool.not_eq_true', List.contains_iff_mem, Bool.eq_false_iff, ne_eq]
  intro marked
  rw [unmarked c marked] at member
  cases member

def Plain (text : String) : Prop :=
  ∀ c ∈ text.toList, isPlain c = true

instance (text : String) : Decidable (Plain text) :=
  inferInstanceAs (Decidable (∀ c ∈ text.toList, isPlain c = true))

/-- A plain character is none of the marks. -/
theorem ne_of_isPlain {c mark : Char} (plain : isPlain c = true) (marked : mark ∈ marks) :
    c ≠ mark := by
  rintro rfl
  simp [isPlain, marked] at plain

/-- Plain characters are admitted everywhere. -/
theorem admits_of_isPlain {c : Char} (plain : isPlain c = true) (rules : Rules) (place : Place) :
    rules.admits place c = true := by
  have feed : c ≠ '\n' := ne_of_isPlain plain (by decide)
  have return' : c ≠ '\r' := ne_of_isPlain plain (by decide)
  have semicolon : c ≠ ';' := ne_of_isPlain plain (by decide)
  simp [Rules.admits, isLineBreak, feed, return', semicolon]

/-- Outside of literals, plain characters lead nowhere else. -/
theorem step_of_isPlain {c : Char} (plain : isPlain c = true) (pending : List Char) :
    (Place.code pending).step c = some (.code pending) := by
  have apart : ∀ mark ∈ marks, c ≠ mark := fun _ => ne_of_isPlain plain
  simp only [marks, List.forall_mem_cons] at apart
  obtain ⟨single, double, back, _, round, _, square, _, curly, _⟩ := apart
  have opening : partner? c = none := by
    unfold partner?
    split <;> simp_all
  simp [Place.step, isQuote, isClosing, opening, single, double, back, round, square, curly]

/-- Plain text opens and closes nothing. -/
theorem Plain.closed {rules : Rules} {text : String} (plain : Plain text) : Closed rules text := by
  suffices ∀ cs : List Char, (∀ c ∈ cs, isPlain c = true) →
      scan rules (.code []) cs = some (.code []) from this text.toList plain
  intro cs
  induction cs with
  | nil => intro _; rfl
  | cons c cs ih =>
    intro plain
    obtain ⟨first, others⟩ := List.forall_mem_cons.mp plain
    rw [scan_cons_of_step (admits_of_isPlain first rules _) (step_of_isPlain first [])]
    exact ih others

theorem Plain.append {a b : String} (first : Plain a) (second : Plain b) : Plain (a ++ b) := by
  intro c mem
  rw [String.toList_append] at mem
  exact (List.mem_append.mp mem).elim (first c) (second c)

theorem Plain.ofList {cs : List Char} (plain : ∀ c ∈ cs, isPlain c = true) :
    Plain (String.ofList cs) := by
  intro c mem
  rw [String.toList_ofList] at mem
  exact plain c mem

/-! ### Inert text -/

/-- Whether a character opens, closes and separates nothing. It may break a line. -/
def isInert (c : Char) : Bool :=
  !isQuote c && (partner? c).isNone && !isClosing c && c != ';'

def Inert (text : String) : Prop :=
  ∀ c ∈ text.toList, isInert c = true

instance (text : String) : Decidable (Inert text) :=
  inferInstanceAs (Decidable (∀ c ∈ text.toList, isInert c = true))

/-- Plain characters are inert. -/
theorem isInert_of_isPlain {c : Char} (plain : isPlain c = true) : isInert c = true := by
  have apart : ∀ mark ∈ marks, c ≠ mark := fun _ => ne_of_isPlain plain
  simp only [marks, List.forall_mem_cons] at apart
  obtain ⟨single, double, back, _, round, _, square, _, curly, semicolon, _⟩ := apart
  have opening : partner? c = none := by
    unfold partner?
    split <;> simp_all
  simp [isInert, isQuote, isClosing, opening, single, double, back, round, square, curly,
    semicolon]

theorem Plain.inert {text : String} (plain : Plain text) : Inert text :=
  fun c mem => isInert_of_isPlain (plain c mem)

/-- Where line breaks are admitted, inert text opens and closes nothing. -/
theorem Inert.closed {semicolons : Bool} {text : String} (inert : Inert text) :
    Closed ⟨true, semicolons⟩ text := by
  suffices ∀ cs : List Char, (∀ c ∈ cs, isInert c = true) →
      scan ⟨true, semicolons⟩ (.code []) cs = some (.code []) from this text.toList inert
  intro cs
  induction cs with
  | nil => intro _; rfl
  | cons c cs ih =>
    intro inert
    obtain ⟨first, others⟩ := List.forall_mem_cons.mp inert
    simp only [isInert, Bool.and_eq_true, Bool.not_eq_true', Option.isNone_iff_eq_none,
      bne_iff_ne] at first
    obtain ⟨⟨⟨quote, opening⟩, closing⟩, semicolon⟩ := first
    have admitted : Rules.admits ⟨true, semicolons⟩ (.code []) c = true := by
      simp [Rules.admits, semicolon]
    have step : (Place.code []).step c = some (.code []) := by
      simp [Place.step, quote, opening, closing]
    rw [scan_cons_of_step admitted step]
    exact ih others

theorem Inert.ofList {cs : List Char} (inert : ∀ c ∈ cs, isInert c = true) :
    Inert (String.ofList cs) := by
  intro c mem
  rw [String.toList_ofList] at mem
  exact inert c mem

end ScriptLisp.Delimiters
