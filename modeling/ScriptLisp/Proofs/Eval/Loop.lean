import ScriptLisp.Proofs.Eval.Known
import ScriptLisp.Proofs.Eval.Literal

/-!
A loop is a function that calls itself. A loop keeps a scope and writes the new values of its names
over the old ones; a function is called anew with them, chooses a clause by their number and binds
them on top of what it was created under. Overwriting all the names leaves the bindings that binding
them anew does, so in every round both evaluate the same body under the same bindings, and they do
the same, as often as the body goes back. Two things tell them apart: the function is a procedure
itself, so procedures that are created later have the next identity, and the fault of a wrong number
of values has the name of what it went back to.

* `Environment.setAll_setAll`: overwriting all the names is binding them anew.
* `GoesBack`, `Misses`: rounds of a body, and those that go back with a wrong number of values.
* `enter_eq_iterate`: where the body never misses, the function does what the loop does.
* `Misses.iterate`, `Misses.enter`: where it misses, both fail.
* `loop_selfApplication`: a loop with literal initial values and the call of its function.
-/

namespace ScriptLisp

/-- The function that has the names of a loop as its parameters, and the same body. -/
def Lambda.ofLoop (names : List Variable) (body : List Node) : Lambda :=
  .single (.mk ⟨names, none⟩ body)

/-- The call of the function of a loop with the initial values of its names. -/
def Node.selfApplication (bindings : List (Variable × Node)) (body : List Node) (tail : Bool) :
    Node :=
  .application (.lambda (.ofLoop (bindings.map (·.1)) body)) (bindings.map (·.2)) tail

namespace Eval

open Stateful (Ends Steady)
open Value (renumber)
open Renumbering (leavingOut)

/-! ### Overwriting -/

/-- Setting names leaves what is said of other variables. -/
theorem filter_setAll (environment : Environment) {names kept : List Variable}
    (within : ∀ name ∈ names, name ∈ kept) (values : List Value) :
    (environment.setAll names values).filter (·.1 ∉ kept) = environment.filter (·.1 ∉ kept) := by
  induction names generalizing environment values with
  | nil => rfl
  | cons name names ih =>
    cases values with
    | nil => rfl
    | cons value values =>
      have here : name ∈ kept := within name List.mem_cons_self
      rw [Environment.setAll, ih _ fun other member => within other (List.mem_cons_of_mem _ member),
        Environment.set, List.filter_cons_of_neg (by simpa using here), List.filter_filter]
      refine List.filter_congr fun binding _ => ?_
      by_cases same : binding.1 = name
      · simp [same, here]
      · simp [same]

/-- With a value for every name, the new bindings stand before the old ones of other variables. -/
theorem setAll_eq_append (environment : Environment) {names : List Variable} {values : List Value}
    (enough : names.length ≤ values.length) :
    environment.setAll names values =
      Environment.setAll [] names values ++ environment.filter (·.1 ∉ names) := by
  induction names generalizing environment values with
  | nil => simp [Environment.setAll]
  | cons name names ih =>
    cases values with
    | nil => exact absurd enough (Nat.not_succ_le_zero _)
    | cons value values =>
      have rest : names.length ≤ values.length := Nat.le_of_succ_le_succ enough
      rw [Environment.setAll, ih _ rest, Environment.setAll,
        ih (Environment.set [] name value) rest,
        List.append_assoc, Environment.set, Environment.set, ← List.singleton_append,
        List.filter_append, List.filter_filter]
      congr 2
      refine List.filter_congr fun binding _ => ?_
      by_cases same : binding.1 = name
      · simp [same]
      · simp [same]

/-- Overwriting all names of a scope gives the bindings that binding them anew gives. -/
theorem Environment.setAll_setAll (environment : Environment) {names : List Variable}
    (first : List Value) {second : List Value} (enough : names.length ≤ second.length) :
    (environment.setAll names first).setAll names second = environment.setAll names second := by
  rw [setAll_eq_append _ enough, filter_setAll environment (fun _ member => member) first,
    ← setAll_eq_append _ enough]

/-! ### Rounds -/

section Rounds

variable (names : List Variable) (body : List Node) (outside : Environment)

/-- Under some values of the names the body ends by going back with new ones. -/
def GoesBack (values : List Value) (machine : Machine) (next : List Value) (after : Machine) :
    Prop :=
  Ends (fun fuel => inSequence (run fuel (outside.setAll names values)) body) machine
    (.ok (.recur next)) after

/-- In some round the body goes back with another number of values than there are names. -/
inductive Misses : List Value → Machine → Nat → Machine → Prop
  | now {values next : List Value} {machine after : Machine}
      (back : GoesBack names body outside values machine next after)
      (other : next.length ≠ names.length) : Misses values machine next.length after
  | later {values next : List Value} {machine between after : Machine} {count : Nat}
      (back : GoesBack names body outside values machine next between)
      (enough : next.length = names.length) (misses : Misses next between count after) :
      Misses values machine count after

end Rounds

variable {names : List Variable} {body : List Node} {outside : Environment}

/-! ### The function of a loop -/

theorem clauseFor_ofLoop (count : Nat) :
    (Lambda.ofLoop names body).clauseFor? count =
      if count = names.length then some (.mk ⟨names, none⟩ body) else none := by
  by_cases same : count = names.length
  · simp [Lambda.ofLoop, Lambda.clauseFor?, Lambda.clauses, Params.accepts, Params.isVariadic,
      Params.required, Clause.params, same]
  · simp [Lambda.ofLoop, Lambda.clauseFor?, Lambda.clauses, Params.accepts, Params.isVariadic,
      Params.required, Clause.params, same]

theorem describeArities_ofLoop :
    describeArities (.ofLoop names body) = toString names.length :=
  rfl

/-- What is done with the end of a round: only a number of values that is right for the names starts
the next one. -/
theorem enter_ofLoop {args : List Value} (fuel : Nat) (enough : args.length = names.length) :
    enter (fuel + 1) (.ofLoop names body) outside args = (do
      match ← inSequence (run fuel (outside.setAll names args)) body with
      | .value value => return value
      | .recur next => enter fuel (.ofLoop names body) outside next) := by
  rw [enter, clauseFor_ofLoop, if_pos enough]
  rfl

theorem enter_ofLoop_of_ne {args : List Value} (fuel : Nat) (other : args.length ≠ names.length) :
    enter (fuel + 1) (.ofLoop names body) outside args =
      fail (.arityMismatch "fn" (toString names.length) args.length) := by
  rw [enter, clauseFor_ofLoop, if_neg other, describeArities_ofLoop]

/-- After a round a loop goes on with the new values, and so does its function. -/
theorem iterate_of_goesBack {values next : List Value} {machine between after : Machine}
    {ending : Except Fault Value} (back : GoesBack names body outside values machine next between)
    (goesOn : Ends (fun fuel =>
      if next.length = names.length then
        iterate fuel names body (outside.setAll names next)
      else fail (.arityMismatch "recur" (toString names.length) next.length)) between ending
      after) :
    Ends (fun fuel => iterate fuel names body (outside.setAll names values)) machine
      ending after := by
  refine .of_succ ?_
  simp only [iterate]
  refine .bind (steady_inSequence _ body) ?_ back ?_
  · dsimp only
    split
    · exact steady_iterate _ names body
    · exact .const _
  · by_cases enough : next.length = names.length
    · simpa only [if_pos enough, Environment.setAll_setAll outside values enough.ge] using goesOn
    · simpa only [if_neg enough] using goesOn

theorem enter_of_goesBack {values next : List Value} {machine between after : Machine}
    {ending : Except Fault Value} (enough : values.length = names.length)
    (back : GoesBack names body outside values machine next between)
    (goesOn : Ends (fun fuel => enter fuel (.ofLoop names body) outside next) between ending
      after) :
    Ends (fun fuel => enter fuel (.ofLoop names body) outside values) machine ending after := by
  refine .of_succ ?_
  simp only [enter_ofLoop _ enough]
  refine .bind (steady_inSequence _ body) ?_ back goesOn
  exact steady_enter outside _ next

/-! ### Wrong numbers of values -/

/-- A loop whose body goes back with a wrong number of values fails. -/
theorem Misses.iterate {values : List Value} {machine after : Machine} {count : Nat}
    (misses : Misses names body outside values machine count after) :
    Ends (fun fuel => iterate fuel names body (outside.setAll names values)) machine
      (.error (.arityMismatch "recur" (toString names.length) count)) after := by
  induction misses with
  | now back other =>
    refine iterate_of_goesBack back ?_
    simp only [if_neg other]
    exact ⟨0, rfl⟩
  | later back enough _ ih =>
    refine iterate_of_goesBack back ?_
    simpa only [if_pos enough] using ih

/-- So does its function, with a fault of its own name. -/
theorem Misses.enter {values : List Value} {machine after : Machine} {count : Nat}
    (misses : Misses names body outside values machine count after)
    (enough : values.length = names.length) :
    Ends (fun fuel => enter fuel (.ofLoop names body) outside values) machine
      (.error (.arityMismatch "fn" (toString names.length) count)) after := by
  induction misses with
  | now back other =>
    refine enter_of_goesBack enough back (.of_succ ?_)
    simp only [enter_ofLoop_of_ne _ other]
    exact ⟨0, rfl⟩
  | later back right _ ih => exact enter_of_goesBack enough back (ih right)

/-! ### Other identities -/

section Renumbering

variable {numbering : Renumbering} (kept : outside.renumber numbering = outside)
include kept

theorem GoesBack.renumber {values next : List Value} {machine after : Machine}
    (carries : ∀ last, numbering.Carries machine.closures last)
    (back : GoesBack names body outside values machine next after) :
    GoesBack names body outside (values.map (renumber numbering)) (machine.renumber numbering)
        (next.map (renumber numbering)) (after.renumber numbering) ∧
      ∀ last, numbering.Carries after.closures last := by
  obtain ⟨fuel, ended⟩ := back
  dsimp only at ended
  have same := renumbers_inSequence numbering fuel (outside.setAll names values) body
  have counts := same.counts machine
  have does := same.does machine (carries _)
  rw [ended] at counts does
  rw [← setAll_renumber, kept] at does
  exact ⟨⟨fuel, does⟩, fun last identity above =>
    carries last identity (Nat.lt_of_le_of_lt counts above)⟩

theorem Misses.renumber {values : List Value} {machine after : Machine} {count : Nat}
    (carries : ∀ last, numbering.Carries machine.closures last)
    (misses : Misses names body outside values machine count after) :
    Misses names body outside (values.map (renumber numbering)) (machine.renumber numbering) count
      (after.renumber numbering) := by
  induction misses with
  | @now values next machine after back other =>
    have length : (next.map (Value.renumber numbering)).length = next.length := List.length_map _
    rw [← length] at other ⊢
    exact .now (back.renumber kept carries).1 other
  | later back enough _ ih =>
    obtain ⟨renumbered, carried⟩ := back.renumber kept carries
    exact .later renumbered ((List.length_map _).trans enough) (ih carried)

/-- As long as the body goes back with a value for each name, the function of a loop does what the
loop does, under other identities. -/
theorem enter_eq_iterate {values : List Value} {machine : Machine}
    (carries : ∀ last, numbering.Carries machine.closures last)
    (enough : values.length = names.length)
    (never : ∀ count after, ¬ Misses names body outside values machine count after) (fuel : Nat) :
    enter fuel (.ofLoop names body) outside (values.map (renumber numbering))
        (machine.renumber numbering) =
      (renumberEnding numbering (renumber numbering)
          (iterate fuel names body (outside.setAll names values) machine).1,
        (iterate fuel names body (outside.setAll names values) machine).2.renumber
          numbering) := by
  induction fuel generalizing values machine with
  | zero => rfl
  | succ fuel ih =>
    have does := (renumbers_inSequence numbering fuel (outside.setAll names values) body).does
      machine (carries _)
    rw [← setAll_renumber, kept] at does
    rw [enter_ofLoop fuel ((List.length_map _).trans enough), iterate, Stateful.bind_run,
      Stateful.bind_run, does]
    rcases outcome : inSequence (run fuel (outside.setAll names values)) body machine with
      ⟨(reason | _) | (value | next), between⟩
    · rfl
    · rfl
    · rfl
    · have back : GoesBack names body outside values machine next between := ⟨fuel, outcome⟩
      by_cases right : next.length = names.length
      · have others : ∀ count after, ¬ Misses names body outside next between count after :=
          fun count after misses => never count after (.later back right misses)
        dsimp only
        rw [if_pos right, Environment.setAll_setAll outside values right.ge]
        exact ih (back.renumber kept carries).2 right others
      · exact absurd (.now back right) (never _ _)

end Renumbering

/-! ### Literal initial values -/

/-- A literal evaluates to the same value under all identities, so there are none in it. -/
theorem map_renumber_literals (numbering : Renumbering) {nodes : List Node} {values : List Value}
    (literals : Node.literals? nodes = some values) : values.map (renumber numbering) = values := by
  have same := renumbers_values numbering (sizeOf nodes) [] nodes
  have given := values_run_literals [] literals (Nat.le_refl _)
  change Renumbers _ _ _ (Eval.values (run (sizeOf nodes) []) nodes) at same
  rw [given] at same
  have does := same.does ⟨[], 0, 0⟩ fun _ above below =>
    absurd (Nat.lt_of_lt_of_le above below) (Nat.lt_irrefl _)
  exact (Except.ok.inj (congrArg Prod.fst does)).symm

section Nodes

variable {bindings : List (Variable × Node)} {values : List Value}

theorem bindInits_literals {fuel : Nat} (environment : Environment)
    (literals : Node.literals? (bindings.map (·.2)) = some values)
    (most : sizeOf (bindings.map (·.2)) ≤ fuel) :
    bindInits (run fuel) bindings environment =
      pure (environment.setAll (bindings.map (·.1)) values) := by
  induction bindings generalizing values environment with
  | nil =>
    cases literals
    rfl
  | cons binding rest ih =>
    obtain ⟨value, more, first, others, rfl⟩ := Node.exists_of_literals_cons literals
    rw [List.map_cons] at most
    simp at most
    have here : sizeOf binding.2 < fuel := by omega
    have later : sizeOf (rest.map (·.2)) ≤ fuel := by omega
    rw [bindInits, run_literal environment first here]
    exact ih _ others later

theorem eval_loop {fuel : Nat} (environment : Environment)
    (literals : Node.literals? (bindings.map (·.2)) = some values) (body : List Node)
    (most : sizeOf (bindings.map (·.2)) ≤ fuel) :
    eval (fuel + 1) environment (.loop bindings body) =
      iterate fuel (bindings.map (·.1)) body
        (environment.setAll (bindings.map (·.1)) values) := by
  rw [eval, run, bindInits_literals environment literals most]
  simp only [pure_bind, valueOf_bind, valueOf_pure, bind_pure]

/-- The function is the next procedure that the machine creates. -/
theorem eval_selfApplication {fuel : Nat} (environment : Environment) (machine : Machine)
    (literals : Node.literals? (bindings.map (·.2)) = some values) (body : List Node)
    (tail : Bool) (most : sizeOf (bindings.map (·.2)) ≤ fuel) :
    eval (fuel + 2) environment (.selfApplication bindings body tail) machine =
      enter fuel (.ofLoop (bindings.map (·.1)) body) environment values
        { machine with closures := machine.closures + 1 } := by
  have args := values_run_literals environment literals (Nat.le_succ_of_le most)
  rw [eval, Node.selfApplication, run]
  simp only [args, pure_bind, valueOf_bind, valueOf_pure, bind_pure]
  rw [run]
  rfl

theorem evaluatesTo_loop_iff (environment : Environment)
    (literals : Node.literals? (bindings.map (·.2)) = some values) (body : List Node)
    (machine : Machine) (ending : Except Fault Value) (after : Machine) :
    EvaluatesTo environment (.loop bindings body) machine ending after ↔
      Ends (fun fuel => iterate fuel (bindings.map (·.1)) body
        (environment.setAll (bindings.map (·.1)) values)) machine ending after := by
  have same (fuel : Nat) (most : sizeOf (bindings.map (·.2)) ≤ fuel) :=
    congrFun (eval_loop environment literals body most) machine
  have steady : Steady fun fuel => iterate fuel (bindings.map (·.1)) body
      (environment.setAll (bindings.map (·.1)) values) :=
    steady_iterate _ _ body
  exact Stateful.ends_iff_of_eventually (steady_eval environment _) steady same ending after

theorem evaluatesTo_selfApplication_iff (environment : Environment)
    (literals : Node.literals? (bindings.map (·.2)) = some values) (body : List Node)
    (tail : Bool) (machine : Machine) (ending : Except Fault Value) (after : Machine) :
    EvaluatesTo environment (.selfApplication bindings body tail) machine ending after ↔
      Ends (fun fuel => enter fuel (.ofLoop (bindings.map (·.1)) body) environment values)
        { machine with closures := machine.closures + 1 } ending after := by
  have same (fuel : Nat) (most : sizeOf (bindings.map (·.2)) ≤ fuel) :=
    eval_selfApplication environment machine literals body tail most
  exact Stateful.ends_iff_of_eventually (steady_eval environment _)
    (steady_enter environment _ values) same ending after

end Nodes

/-! ### Loops and functions -/

/-- Identities as they are when one more procedure is created first. -/
def Machine.oneAhead (machine : Machine) : Renumbering :=
  leavingOut (machine.closures + 1) 1

/-- A loop with literal initial values does the same as the call of its function with these values,
up to the identities of procedures: the function itself is a procedure, so the call is one ahead.
Only where the body goes back with a wrong number of values are the two faults told apart by their
names. That the identities in the bindings are known holds of every machine in use
(`InUse.identities_known`). -/
theorem loop_selfApplication {bindings : List (Variable × Node)} {values : List Value}
    {environment : Environment} {machine : Machine}
    (literals : Node.literals? (bindings.map (·.2)) = some values)
    (known : machine.KnowsBindings environment)
    (knownGlobals : machine.KnowsBindings machine.globals) (body : List Node) (tail : Bool) :
    (∀ count after, Misses (bindings.map (·.1)) body environment values machine count after →
      EvaluatesTo environment (.loop bindings body) machine
          (.error (.arityMismatch "recur" (toString bindings.length) count)) after ∧
        EvaluatesTo environment (.selfApplication bindings body tail) machine
          (.error (.arityMismatch "fn" (toString bindings.length) count))
          (after.renumber machine.oneAhead)) ∧
      ((∀ count after, ¬ Misses (bindings.map (·.1)) body environment values machine count after) →
        ∀ ending after,
          EvaluatesTo environment (.selfApplication bindings body tail) machine ending after ↔
            ∃ result left, EvaluatesTo environment (.loop bindings body) machine result left ∧
              ending = renumberResult machine.oneAhead (renumber machine.oneAhead) result ∧
              after = left.renumber machine.oneAhead) := by
  -- The call is made one identity ahead, where nothing that is known has changed.
  have kept : environment.renumber machine.oneAhead = environment :=
    (Environment.renumber_leavingOut_iff 1).mpr known
  have keptValues : values.map (renumber machine.oneAhead) = values :=
    map_renumber_literals _ literals
  have start : machine.renumber machine.oneAhead =
      { machine with closures := machine.closures + 1 } :=
    renumber_of_known knownGlobals (Nat.le_refl _) 1
  have carries : ∀ last, machine.oneAhead.Carries machine.closures last :=
    fun _ _ above _ => Renumbering.leavingOut_of_le above
  have names : (bindings.map (·.1)).length = bindings.length := List.length_map _
  have enough : values.length = (bindings.map (·.1)).length := by
    rw [Node.length_of_literals literals, List.length_map, names]
  constructor
  · intro count after misses
    have called := (misses.renumber kept carries).enter ((List.length_map _).trans enough)
    rw [keptValues, start, names] at called
    have looped := misses.iterate
    rw [names] at looped
    exact ⟨(evaluatesTo_loop_iff environment literals body machine _ after).mpr looped,
      (evaluatesTo_selfApplication_iff environment literals body tail machine _ _).mpr called⟩
  · intro never ending after
    -- Without a miss, each round of the loop is one call of the function.
    have same := enter_eq_iterate kept carries enough never
    rw [keptValues, start] at same
    simp only [evaluatesTo_loop_iff environment literals,
      evaluatesTo_selfApplication_iff environment literals]
    exact ends_renumbered_iff same ending after

/-- The bindings of `(loop [x nil x false] (if x (fn []) (recur nil true)))`. -/
def twiceBound : List (Variable × Node) :=
  [(⟨none, "x"⟩, .nil ⟨0, ()⟩), (⟨none, "x"⟩, .boolean ⟨0, false⟩)]

/-- Its body. -/
def createsAtLast : List Node :=
  [.conditional [(.reference ⟨none, "x"⟩, .lambda (.ofLoop [] []))]
    (.recursionPoint [.nil ⟨0, ()⟩, .boolean ⟨1, true⟩])]

/-- The bindings of its second round. -/
def secondRound : Environment :=
  [(⟨none, "x"⟩, .boolean true)]

/-- The second binding of a name replaces the first, and the procedure that the second round creates
is the first one for the loop and the second one for the call. Going back with no values is not
enough for two bindings of one name. -/
theorem loop_selfApplication_createsAtLast :
    Node.literals? (twiceBound.map (·.2)) = some [.nil, .boolean false] ∧
      (Machine.new .ruby).KnowsBindings [] ∧
      (Machine.new .ruby).KnowsBindings (Machine.new .ruby).globals ∧
      EvaluatesTo [] (.loop twiceBound createsAtLast) (.new .ruby)
        (.ok (.closure 1 (.ofLoop [] []) secondRound)) { Machine.new .ruby with closures := 1 } ∧
      EvaluatesTo [] (.selfApplication twiceBound createsAtLast false) (.new .ruby)
        (.ok (.closure 2 (.ofLoop [] []) secondRound)) { Machine.new .ruby with closures := 2 } ∧
      EvaluatesTo [] (.loop twiceBound [.recursionPoint []]) (.new .ruby)
        (.error (.arityMismatch "recur" "2" 0)) (.new .ruby) ∧
      EvaluatesTo [] (.selfApplication twiceBound [.recursionPoint []] false) (.new .ruby)
        (.error (.arityMismatch "fn" "2" 0)) { Machine.new .ruby with closures := 1 } := by
  have literals : Node.literals? (twiceBound.map (·.2)) = some [.nil, .boolean false] := rfl
  have known : (Machine.new .ruby).KnowsBindings [] := List.forall_mem_nil _
  have globals := (InUse.known_new .ruby).globals
  have looped : EvaluatesTo [] (.loop twiceBound createsAtLast) (.new .ruby)
      (.ok (.closure 1 (.ofLoop [] []) secondRound)) { Machine.new .ruby with closures := 1 } :=
    ⟨6, rfl⟩
  have kept := (Environment.renumber_leavingOut_iff 1).mpr globals
  have ahead (count : Nat) : (⟨(Machine.new .ruby).globals, 0, count + 1⟩ : Machine) =
      Machine.renumber (Machine.new .ruby).oneAhead ⟨(Machine.new .ruby).globals, 0, count⟩ :=
    congrArg (fun globals => (⟨globals, 0, count + 1⟩ : Machine)) kept.symm
  have called : EvaluatesTo [] (.selfApplication twiceBound createsAtLast false) (.new .ruby)
      (.ok (.closure 2 (.ofLoop [] []) secondRound)) { Machine.new .ruby with closures := 2 } := by
    obtain ⟨misses, others⟩ := loop_selfApplication literals known globals createsAtLast false
    refine (others ?_ _ _).mpr ⟨_, _, looped, rfl, ahead 1⟩
    intro count after missed
    cases (looped.unique (misses count after missed).1).1
  have back : GoesBack (twiceBound.map (·.1)) [.recursionPoint []] [] [.nil, .boolean false]
      (.new .ruby) [] (.new .ruby) := ⟨1, rfl⟩
  obtain ⟨loopFails, callFails⟩ :=
    (loop_selfApplication literals known globals [.recursionPoint []] false).1 _ _
      (.now back (by decide))
  exact ⟨literals, known, globals, looped, called, loopFails, ahead 0 ▸ callFails⟩

end Eval

end ScriptLisp
