import ScriptLisp.Proofs.Eval.Checked
import ScriptLisp.Proofs.Stateful

/-!
Library procedures never reach outside of their arguments. The arity of a procedure is compared with
the number of arguments in one place, and every call passes there, also one over a spread sequence.
What it lets through is enough for the body, so the body does what the library does, and evaluation
with checked accesses is evaluation, however a failed access would end.

* `inside_lift`, `settle_lift`: what always has a result.
* `conjEntries_eq`, `conj_eq`, `nth_eq`: parts of bodies that check for themselves.
* `body_eq_lift`: the body of each procedure, by the numbers of arguments that its arity accepts.
* `library_eq_core`: the bodies with checked accesses make the core library.
* `Unaffected`: the evaluator never meets a failed access.
* `library_accesses_inside`: calls, entries of maps, and whole evaluations.
-/

namespace ScriptLisp.Eval.Checked

variable {α β : Type}

/-! ### Bodies with a result -/

theorem inside_lift (evaluation : Evaluation α) : Inside (OptionT.lift evaluation : Body α) := by
  intro machine missing
  rw [OptionT.run_lift, Stateful.bind_run] at missing
  split at missing
  · cases missing
  · cases missing

/-- A body with a result is settled by that result. -/
@[simp]
theorem settle_lift (crash evaluation : Evaluation Value) :
    settle crash (OptionT.lift evaluation) = evaluation := by
  simp [settle]

/-- The rule for a result that is made into another one. -/
theorem given_bind_pure (result : Except Fault α) (f : α → β) :
    (given result >>= fun value => pure (f value)) = given (result.map f) := by
  cases result with
  | ok value => rfl
  | error reason => rfl

/-- The rule for a result that evaluation goes on with. -/
theorem given_bind_lift (result : Except Fault α) (next : α → Evaluation β) :
    (given result >>= fun value => OptionT.lift (next value)) =
      OptionT.lift (lift result >>= next) := by
  cases result with
  | ok value => rfl
  | error reason => rfl

/-! ### Accesses inside -/

theorem elementsAt_zero (value : Value) (others : List Value) :
    elementsAt (value :: others) 0 = given (elementsOf value) :=
  rfl

/-- An addition that is no pair fails before its elements are accessed. -/
theorem conjEntries_eq (entries : List (Value × Value)) (additions : List Value) :
    conjEntries entries additions = given (Eval.conjEntries entries additions) := by
  induction additions generalizing entries with
  | nil => rfl
  | cons addition rest ih =>
    rw [conjEntries, Eval.conjEntries]
    cases elementsOf addition with
    | error reason => rfl
    | ok entry =>
      match entry with
      | [] => rfl
      | [_] => rfl
      | [key, value] => exact ih (Value.insertEntry entries key value)
      | _ :: _ :: _ :: _ => rfl

theorem conj_eq (collection : Value) (additions : List Value) :
    conj collection additions = given (Eval.conj collection additions) := by
  cases collection with
  | map entries =>
    rw [conj, conjEntries_eq, given_bind_pure]
    rfl
  | _ => rfl

/-- The index is compared with the number of elements before it is used. -/
theorem nth_eq (collection index : Value) (default? : Option Value) :
    (given (elementsOf collection) >>= fun elements => nth elements index default?) =
      given (Eval.nth collection index default?) := by
  rw [Eval.nth]
  cases elementsOf collection with
  | error reason => rfl
  | ok elements =>
    cases index with
    | integer i =>
      change nth elements (.integer i) default? = _
      rcases isFound : (if i < 0 then none else elements[i.toInt.toNat]?).or default? with _ | value
      · simp only [nth, isFound, bind, Except.bind]
      · simp only [nth, isFound, bind, Except.bind]
        rfl
    | _ => rfl

/-! ### Arguments that are let through -/

/-- A procedure of one argument is given one. -/
theorem eq_singleton_of_accepts {args : List Value}
    (accepted : (Arity.exactly 1).accepts args.length) : ∃ value, args = [value] :=
  List.length_eq_one_iff.mp (beq_iff_eq.mp accepted)

variable (applyTo : Value → List Value → Evaluation Value)

/-- The body of a library procedure that is let through does what the library does. -/
theorem body_eq_lift {procedure : Builtin} {args : List Value}
    (accepted : procedure.arity.accepts args.length) :
    ∃ evaluation, call? applyTo procedure args = some evaluation ∧
      body applyTo procedure args = OptionT.lift evaluation := by
  -- The arity leaves few shapes of arguments, and the shape alone settles the accesses.
  cases procedure with
  | list | vector | hashMap | hashSet | str => exact ⟨_, rfl, rfl⟩
  | concat => exact ⟨_, rfl, given_bind_pure _ _⟩
  | first | second | count | isEmpty =>
    obtain ⟨x, rfl⟩ := eq_singleton_of_accepts accepted
    exact ⟨_, rfl, given_bind_pure _ _⟩
  | rest =>
    obtain ⟨x, rfl⟩ := eq_singleton_of_accepts accepted
    refine ⟨_, rfl, ?_⟩
    rw [body, elementsAt_zero]
    cases elementsOf x with
    | error reason => rfl
    | ok elements =>
      cases elements with
      | nil => rfl
      | cons => rfl
  | next =>
    obtain ⟨x, rfl⟩ := eq_singleton_of_accepts accepted
    refine ⟨_, rfl, ?_⟩
    rw [body, elementsAt_zero]
    cases elementsOf x with
    | error reason => rfl
    | ok elements =>
      match elements with
      | [] => rfl
      | [_] => rfl
      | _ :: _ :: _ => rfl
  | cons =>
    match args, accepted with
    | [_, _], _ => exact ⟨_, rfl, given_bind_pure _ _⟩
  | conj =>
    match args, accepted with
    | x :: additions, _ => exact ⟨_, rfl, conj_eq x additions⟩
  | nth =>
    match args, accepted with
    | x :: index :: others, _ =>
      refine ⟨_, rfl, ?_⟩
      rw [List.head?_eq_getElem?]
      exact nth_eq x index others[0]?
  | isList | isVector | isMap | isSet | isSymbol | isKeyword | isString | isNumber | isNil | isSeq
  | name | qualifier | identity =>
    obtain ⟨x, rfl⟩ := eq_singleton_of_accepts accepted
    exact ⟨_, rfl, rfl⟩
  | symbol | keyword =>
    match args, accepted with
    | [x], _ => exact ⟨_, rfl, given_bind_pure _ _⟩
    | [qualifier, x], _ => exact ⟨_, rfl, given_bind_pure _ _⟩
  | apply =>
    match args, accepted with
    | f :: first :: others, _ =>
      have isLast := List.getLast?_eq_some_getLast (List.cons_ne_nil first others)
      refine ⟨_, by rw [call?, isLast], ?_⟩
      rw [body, removeFirst, pure_bind]
      simp only [isLast]
      exact given_bind_lift _ _
  | gensym =>
    match args, accepted with
    | [], _ => exact ⟨_, rfl, rfl⟩
    | [x], _ =>
      exact ⟨_, rfl, given_bind_lift (gensymStart x) fun start =>
        return Value.symbol (← generateName start)⟩

/-- By the number of arguments that each body takes apart. -/
theorem inside_body {procedure : Builtin} {args : List Value}
    (accepted : procedure.arity.accepts args.length) : Inside (body applyTo procedure args) := by
  obtain ⟨evaluation, -, same⟩ := body_eq_lift applyTo accepted
  rw [same]
  exact inside_lift evaluation

/-- With too few arguments an access is outside. -/
example : ¬Inside (body applyTo .cons [.nil]) :=
  fun inside => inside (Machine.new .javascript) rfl

/-- Behind the comparison with the arity it makes no difference what a failed access would do. -/
theorem settle_body {procedure : Builtin} {args : List Value} (crash mismatch : Evaluation Value)
    (accepted : procedure.arity.accepts args.length) :
    settle crash (body applyTo procedure args) =
      (call? applyTo procedure args).getD mismatch := by
  obtain ⟨evaluation, called, same⟩ := body_eq_lift applyTo accepted
  rw [same, called, settle_lift, Option.getD_some]

/-! ### Evaluation -/

/-- However a failed access would end, these bodies make the core library. -/
theorem library_eq_core (crash : Evaluation Value) : library crash = .core := by
  refine congrArg Library.mk ?_
  funext applyTo procedure args
  by_cases accepted : procedure.arity.accepts args.length
  · rw [guarded, guarded, if_pos accepted, if_pos accepted]
    exact settle_body applyTo crash _ accepted
  · rw [guarded, guarded, if_neg accepted, if_neg accepted]

/-- With this fuel the evaluator with checked accesses is the evaluator, so that it does not matter
how a failed access would end. -/
structure Unaffected (crash : Evaluation Value) (fuel : Nat) : Prop where
  run : run crash fuel = Eval.run fuel
  iterate : iterate crash fuel = Eval.iterate fuel
  apply : apply crash fuel = Eval.apply fuel
  enter : enter crash fuel = Eval.enter fuel

/-- By induction on the fuel: the library is the same one, whatever its bodies would crash with. -/
theorem unaffected (crash : Evaluation Value) (fuel : Nat) : Unaffected crash fuel := by
  constructor
  all_goals
    dsimp only [Checked.run, Checked.iterate, Checked.apply, Checked.enter]
    rw [library_eq_core]

/-- No access of a library procedure fails: neither in a call with a number of arguments that its
arity accepts, nor where entries are added to a map, nor anywhere in an evaluation. -/
theorem library_accesses_inside :
    (∀ (applyTo : Value → List Value → Evaluation Value) (procedure : Builtin) (args : List Value),
      procedure.arity.accepts args.length → Inside (body applyTo procedure args)) ∧
    (∀ (entries : List (Value × Value)) (additions : List Value),
      Inside (conjEntries entries additions)) ∧
    ∀ (crash : Evaluation Value) (fuel : Nat), Unaffected crash fuel := by
  refine ⟨?_, ?_, unaffected⟩
  · intro applyTo procedure args accepted
    exact inside_body applyTo accepted
  · intro entries additions
    rw [conjEntries_eq]
    exact inside_lift _

/-- A spread sequence becomes the arguments of a procedure that reads two positions. -/
theorem library_accesses_inside_spread :
    Builtin.apply.arity.accepts 2 ∧
      Inside (body (Eval.apply 1) .apply
        [.builtin .nth, .list [.list [.string "a"], .integer 0]]) ∧
      (apply (throw .outOfFuel) 2 (.builtin .apply)
        [.builtin .nth, .list [.list [.string "a"], .integer 0]] (Machine.new .javascript)).1 =
        .ok (.string "a") := by
  obtain ⟨calls, -, evaluations⟩ := library_accesses_inside
  refine ⟨rfl, calls _ _ _ rfl, ?_⟩
  rw [(evaluations _ 2).apply]
  rfl

end ScriptLisp.Eval.Checked
