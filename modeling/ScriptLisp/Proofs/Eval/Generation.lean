import ScriptLisp.Proofs.Eval.Fuel

/-!
Generated names. A name is its start followed by its number, and no machine gives a number twice,
whatever is evaluated in between. But a start is any text: the end of one start may be read as the
first digits of a number after another start, and then two calls give the same name. Without such
starts all names are different.

* `Generated`, `Calls`: what a call gives, and the calls of a machine's use.
* `apply_gensym`: every call with a start, or none, gives a name.
* `name_eq_iff`: when a later name is the same as an earlier one.
* `gensym_names`: the names of all calls of a machine's use.
-/

namespace ScriptLisp.Eval

/-! ### Calls -/

/-- The start that a call asks for: the one it is given, or the usual one. -/
def startOf? : List Value → Option String
  | [] => some "G__"
  | [.string start] | [.symbol start] => some start
  | _ => none

/-- Every call that asks for a start gives the start with the next number. -/
theorem apply_gensym {args : List Value} {start : String} (asked : startOf? args = some start)
    (fuel : Nat) (machine : Machine) :
    apply (fuel + 1) (.builtin .gensym) args machine =
      (.ok (.symbol (start ++ toString (machine.gensyms + 1))),
        { machine with gensyms := machine.gensyms + 1 }) := by
  unfold startOf? at asked
  split at asked
  · cases asked
    rfl
  · cases asked
    rfl
  · cases asked
    rfl
  · cases asked

/-- A name that was generated: its start and its number. -/
structure Generated where
  start : String
  number : Nat

def Generated.name (generated : Generated) : String :=
  generated.start ++ toString generated.number

/-- The names that calls on a machine give, one after the other. In between, the machine is used in
other ways. -/
inductive Calls : Machine → List Generated → Prop
  | none (machine : Machine) : Calls machine []
  | call {machine before after : Machine} {fuel : Nat} {args : List Value} {first : Generated}
      {rest : List Generated} (between : machine.Steps before)
      (asked : startOf? args = some first.start)
      (gives : apply fuel (.builtin .gensym) args before = (.ok (.symbol first.name), after))
      (later : Calls after rest) : Calls machine (first :: rest)

theorem Calls.next {machine : Machine} {start : String} {rest : List Generated} (args : List Value)
    (asked : startOf? args = some start)
    (later : Calls { machine with gensyms := machine.gensyms + 1 } rest) :
    Calls machine (⟨start, machine.gensyms + 1⟩ :: rest) :=
  .call .refl asked (apply_gensym asked 0 machine) later

/-! ### Numbers -/

theorem toDigits_inj {m n : Nat} (same : Nat.toDigits 10 m = Nat.toDigits 10 n) : m = n := by
  calc m = Nat.ofDigitChars 10 (Nat.toDigits 10 m) 0 := Nat.ofDigitChars_ten_toDigits.symm
    _ = Nat.ofDigitChars 10 (Nat.toDigits 10 n) 0 := by rw [same]
    _ = n := Nat.ofDigitChars_ten_toDigits

/-- With more digits in front a number is no smaller. -/
theorem le_of_toDigits_eq_append {m n : Nat} {digits : List Char}
    (longer : Nat.toDigits 10 n = digits ++ Nat.toDigits 10 m) : m ≤ n := by
  have value := congrArg (fun digits => Nat.ofDigitChars 10 digits 0) longer
  simp only [Nat.ofDigitChars_append, Nat.ofDigitChars_ten_toDigits] at value
  rw [Nat.ofDigitChars_eq_ofDigitChars_zero, Nat.ofDigitChars_ten_toDigits] at value
  omega

theorem isDigit_of_toDigits_eq_append {n : Nat} {digits rest : List Char}
    (written : Nat.toDigits 10 n = digits ++ rest) : ∀ c ∈ digits, c.isDigit = true := by
  intro c member
  have among : c ∈ Nat.toDigits 10 n := written ▸ List.mem_append_left rest member
  exact Nat.isDigit_of_mem_toDigits (by decide) (Nat.le_refl 10) among

theorem Generated.toList_name (generated : Generated) :
    generated.name.toList = generated.start.toList ++ Nat.toDigits 10 generated.number := by
  rw [name, String.toList_append, Nat.toString_eq_ofList_toDigits, String.toList_ofList]

/-- A later name is the same as an earlier one exactly if its number is written as the number of the
earlier one, after what the earlier start has more than its own. -/
theorem name_eq_iff {earlier later : Generated} (grows : earlier.number < later.number) :
    earlier.name = later.name ↔
      ∃ digits, earlier.start.toList = later.start.toList ++ digits ∧
        Nat.toDigits 10 later.number = digits ++ Nat.toDigits 10 earlier.number := by
  rw [← String.toList_inj, earlier.toList_name, later.toList_name, List.append_eq_append_iff]
  constructor
  · rintro (⟨digits, -, longer⟩ | found)
    · exact absurd (le_of_toDigits_eq_append longer) (by omega)
    · exact found
  · exact .inr

/-! ### Names -/

/-- A call that gives a name takes the next number. -/
theorem number_of_gives {machine after : Machine} {fuel : Nat} {args : List Value}
    {generated : Generated} (asked : startOf? args = some generated.start)
    (gives : apply fuel (.builtin .gensym) args machine = (.ok (.symbol generated.name), after)) :
    generated.number = machine.gensyms + 1 ∧ after.gensyms = generated.number := by
  cases fuel with
  | zero => cases gives
  | succ fuel =>
    rw [apply_gensym asked] at gives
    obtain ⟨given, rfl⟩ := Prod.mk.inj gives
    have texts := congrArg String.toList (Value.symbol.inj (Except.ok.inj given))
    rw [generated.toList_name, String.toList_append, Nat.toString_eq_ofList_toDigits,
      String.toList_ofList] at texts
    have number := toDigits_inj (List.append_cancel_left texts)
    exact ⟨number.symm, number⟩

/-- The numbers grow from call to call, from the counter on. -/
theorem Calls.numbers {machine : Machine} {names : List Generated} (calls : Calls machine names) :
    (∀ generated ∈ names, machine.gensyms < generated.number) ∧
      names.Pairwise fun earlier later => earlier.number < later.number := by
  induction calls with
  | none => exact ⟨List.forall_mem_nil _, .nil⟩
  | call between asked gives _ ih =>
    obtain ⟨above, increasing⟩ := ih
    obtain ⟨number, counter⟩ := number_of_gives asked gives
    have grown := (counters_le_of_steps between).1
    refine ⟨List.forall_mem_cons.mpr ⟨by omega, ?_⟩, List.pairwise_cons.mpr ⟨?_, increasing⟩⟩
    · intro generated member
      have := above generated member
      omega
    · intro generated member
      have := above generated member
      omega

/-- On every machine each call, with a start of its own or the usual one, gives the start with the
next number. Of the names that calls give while the machine is used, a later one is the same as an
earlier one exactly if the earlier start is the later one followed by some digits, and the later
number is written as these digits followed by the earlier number. So all names are different if no
start is another one followed by digits. -/
theorem gensym_names {machine : Machine} {names : List Generated} (calls : Calls machine names) :
    (∀ (fuel : Nat) (args : List Value) (start : String), startOf? args = some start →
      apply (fuel + 1) (.builtin .gensym) args machine =
        (.ok (.symbol (start ++ toString (machine.gensyms + 1))),
          { machine with gensyms := machine.gensyms + 1 })) ∧
    (names.Pairwise fun earlier later => earlier.name = later.name ↔
      ∃ digits, earlier.start.toList = later.start.toList ++ digits ∧
        Nat.toDigits 10 later.number = digits ++ Nat.toDigits 10 earlier.number) ∧
    ((∀ a ∈ names, ∀ b ∈ names, ∀ digits, a.start.toList = b.start.toList ++ digits →
      (∀ c ∈ digits, c.isDigit = true) → digits = []) → (names.map (·.name)).Nodup) := by
  obtain ⟨-, increasing⟩ := calls.numbers
  refine ⟨?_, increasing.imp name_eq_iff, ?_⟩
  · intro fuel args start asked
    exact apply_gensym asked fuel machine
  · intro noDigits
    refine List.pairwise_map.mpr (increasing.imp_of_mem fun memberA memberB grows same => ?_)
    obtain ⟨digits, starts, written⟩ := (name_eq_iff grows).mp same
    have none := noDigits _ memberA _ memberB digits starts
      (isDigit_of_toDigits_eq_append written)
    rw [none, List.nil_append] at written
    exact absurd (toDigits_inj written) (by omega)

/-- The call `(f)` where `f` generates names. -/
def callInProgram : Evaluation Value :=
  eval 5 [(⟨none, "f"⟩, .builtin .gensym)] (.application (.reference ⟨none, "f"⟩) [] false)

/-- Names with the starts `x` and `x-`, and a name for a program in between. -/
theorem gensym_names_withProgram :
    apply 1 (.builtin .gensym) [.symbol "x"] (.new .ruby) =
        (.ok (.symbol "x1"), { Machine.new .ruby with gensyms := 1 }) ∧
      Calls (.new .ruby) [⟨"x", 1⟩, ⟨"x-", 3⟩] ∧
      ([⟨"x", 1⟩, ⟨"x-", 3⟩].map Generated.name).Nodup := by
  have program (machine : Machine) : machine.Steps (callInProgram machine).2 :=
    steps_eval _ 5 _ machine
  have calls : Calls (.new .ruby) [⟨"x", 1⟩, ⟨"x-", 3⟩] := by
    refine .next [.symbol "x"] rfl ?_
    have asked : startOf? [.string "x-"] = some "x-" := rfl
    exact .call (program _) asked (apply_gensym asked 0 _) (.none _)
  obtain ⟨gives, -, different⟩ := gensym_names calls
  refine ⟨gives 0 [.symbol "x"] "x" rfl, calls, different ?_⟩
  intro a memberA b memberB digits starts areDigits
  simp only [List.mem_cons, List.not_mem_nil, or_false] at memberA memberB
  rcases memberA with rfl | rfl
  · rcases memberB with rfl | rfl
    · simpa using starts
    · simp at starts
  · rcases memberB with rfl | rfl
    · have dash : ['-'] = digits := by simpa using starts
      subst dash
      simp at areDigits
    · simpa using starts

/-- The eleventh name, with the start `x`, is the same as the first, with the start `x1`. -/
theorem gensym_repeats :
    Calls (.new .javascript) [⟨"x1", 1⟩, ⟨"G__", 2⟩, ⟨"G__", 3⟩, ⟨"G__", 4⟩, ⟨"G__", 5⟩,
        ⟨"G__", 6⟩, ⟨"G__", 7⟩, ⟨"G__", 8⟩, ⟨"G__", 9⟩, ⟨"G__", 10⟩, ⟨"x", 11⟩] ∧
      Generated.name ⟨"x1", 1⟩ = Generated.name ⟨"x", 11⟩ := by
  constructor
  · refine .next [.string "x1"] rfl ?_
    iterate 9 refine .next [] rfl ?_
    exact .next [.string "x"] rfl (.none _)
  · decide +kernel

end ScriptLisp.Eval
