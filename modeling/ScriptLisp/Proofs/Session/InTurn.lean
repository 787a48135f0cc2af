import ScriptLisp.Session.Compile
import ScriptLisp.Proofs.Reader.Composition
import ScriptLisp.Proofs.Stateful

/-!
Compiling a program at once or piece by piece. Pieces that can each be read on their own, joined by
line breaks, compile to what the pieces compile to one after the other in one session: the same
text or the same failure, and the same session afterwards.

* `compileInTurn`: compilation of texts one after the other, up to the first that fails.
* `compileForms_append`: forms compile in sequence, whatever the session.
* `compile_line`: one step, a text and a further line.
* `compile_joined`: any number of texts.
-/

namespace ScriptLisp.Session

/-- What a compilation gives: a text or why there is none, and the session after it. -/
abbrev Ending := Except (Halt CompileFault) String × Session

/-- Goes on after a compilation that succeeded and joins the texts. -/
def Ending.andThen (first : Ending) (next : Session → Ending) : Ending :=
  match first with
  | (.error halt, session) => (.error halt, session)
  | (.ok text, session) =>
    match next session with
    | (.error halt, session) => (.error halt, session)
    | (.ok others, session) => (.ok (text ++ others), session)

/-- Compiles texts one after the other in one session, up to the first that fails. -/
def compileInTurn (fuel : Nat) : List String → Session → Ending
  | [], session => (.ok "", session)
  | text :: rest, session => Ending.andThen (session.compile fuel text) (compileInTurn fuel rest)

/-! ### Forms in sequence -/

/-- Forms compile one after the other, and the session of the first serves the others. -/
theorem compileForms_append (fuel : Nat) (first second : List Form) :
    compileForms fuel (first ++ second) = (do
      let text ← compileForms fuel first
      return text ++ (← compileForms fuel second)) := by
  induction first with
  | nil =>
    simp only [List.nil_append, compileForms, pure_bind, String.empty_append, bind_pure]
  | cons form rest ih =>
    simp only [List.cons_append, compileForms, ih, bind_assoc, pure_bind, String.append_assoc]

/-- The ending of a program whose forms ended in some way. -/
def Ending.ofForms : Except (Halt FormFault) String × Session → Ending
  | (.ok text, session) => (.ok text, session)
  | (.error (.fault fault), session) => (.error (.fault (.form fault)), session)
  | (.error .outOfFuel, session) => (.error .outOfFuel, session)

theorem compile_eq_ofForms {text : String} {forms : List Form} (readable : read text = .ok forms)
    (fuel : Nat) (session : Session) :
    session.compile fuel text = Ending.ofForms (compileForms fuel forms session) := by
  rw [compile, readable]
  rfl

/-! ### Texts in sequence -/

/-- A text and a further line compile like the text and then the line. -/
theorem compile_line {text line : String} {forms others : List Form}
    (readText : read text = .ok forms) (readLine : read line = .ok others)
    (fuel : Nat) (session : Session) :
    session.compile fuel (text ++ "\n" ++ line) =
      Ending.andThen (session.compile fuel text) fun session => session.compile fuel line := by
  have readBoth := Reader.read_lines readText readLine
  rw [compile_eq_ofForms readBoth, compile_eq_ofForms readText, compileForms_append]
  simp only [compile_eq_ofForms readLine]
  rw [Stateful.bind_run]
  rcases compileForms fuel forms session with ⟨halt | output, after⟩
  · cases halt with
    | fault fault => rfl
    | outOfFuel => rfl
  · simp only [Stateful.bind_run, Ending.ofForms, Ending.andThen]
    rcases compileForms fuel others after with ⟨halt | output, last⟩
    · cases halt with
      | fault fault => rfl
      | outOfFuel => rfl
    · rfl

theorem Ending.andThen_nothing (first : Ending) :
    first.andThen (fun session => (.ok "", session)) = first := by
  rcases first with ⟨halt | text, session⟩
  · rfl
  · simp only [Ending.andThen, String.append_empty]

theorem read_empty : read "" = .ok [] :=
  (Reader.read_ofList []).trans (Reader.readChars_eq_ok_iff.mpr (.nil (.done [])))

/-- Texts that can each be read, joined by line breaks, can be read. -/
theorem read_joined {texts : List String} (readable : ∀ t ∈ texts, ∃ forms, read t = .ok forms) :
    ∃ forms, read ("\n".intercalate texts) = .ok forms := by
  match texts with
  | [] => exact ⟨[], read_empty⟩
  | [text] =>
    rw [String.intercalate_singleton]
    exact readable text List.mem_cons_self
  | text :: next :: rest =>
    obtain ⟨forms, readText⟩ := readable text List.mem_cons_self
    obtain ⟨others, readOthers⟩ :=
      read_joined fun t member => readable t (List.mem_cons_of_mem text member)
    rw [String.intercalate_cons_cons]
    exact ⟨forms ++ others, Reader.read_lines readText readOthers⟩

/-- Compiling at once agrees with compiling piece by piece: texts that can each be read, joined by
line breaks, compile in any session like the texts one after the other. The text, the failure and
the session afterwards are the same. -/
theorem compile_joined (fuel : Nat) (session : Session) {texts : List String}
    (readable : ∀ t ∈ texts, ∃ forms, read t = .ok forms) :
    session.compile fuel ("\n".intercalate texts) = compileInTurn fuel texts session := by
  induction texts generalizing session with
  | nil =>
    rw [String.intercalate_nil, compile_eq_ofForms read_empty]
    rfl
  | cons text rest ih =>
    have readableRest : ∀ t ∈ rest, ∃ forms, read t = .ok forms :=
      fun t member => readable t (List.mem_cons_of_mem text member)
    obtain ⟨forms, readText⟩ := readable text List.mem_cons_self
    cases rest with
    | nil =>
      rw [String.intercalate_singleton, compileInTurn]
      exact (Ending.andThen_nothing _).symm
    | cons next rest =>
      obtain ⟨others, readOthers⟩ := read_joined readableRest
      rw [String.intercalate_cons_cons, compile_line readText readOthers, compileInTurn]
      congr 1
      funext after
      exact ih after readableRest

/-- A macro of one text, which ends in a comment, serves the next. -/
theorem compile_joined_macro :
    (∀ t ∈ ["(defmacro m [x] x) ; a macro", "(m y)"], ∃ forms, read t = .ok forms) ∧
    ((Session.new .javascript).compile 9
      ("\n".intercalate ["(defmacro m [x] x) ; a macro", "(m y)"])).1.toOption = some "y;\n" := by
  have accepted : ∀ t ∈ ["(defmacro m [x] x) ; a macro", "(m y)"], (read t).isOk = true := by
    decide +kernel
  have readable :
      ∀ t ∈ ["(defmacro m [x] x) ; a macro", "(m y)"], ∃ forms, read t = .ok forms := by
    intro t member
    have ok := accepted t member
    cases outcome : read t with
    | ok forms => exact ⟨forms, rfl⟩
    | error failure => rw [outcome] at ok; cases ok
  refine ⟨readable, ?_⟩
  rw [compile_joined 9 _ readable]
  decide +kernel

end ScriptLisp.Session
