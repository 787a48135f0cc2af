import ScriptLisp.Analysis.Basic
import ScriptLisp.Proofs.Analysis.Arity
import ScriptLisp.Proofs.Target.Capability
import ScriptLisp.Proofs.Target.JavaScriptTotal
import ScriptLisp.Target.Ruby

/-!
The clause that is run. In the targets a function of several clauses is a chain of cases, each with
a test on the number of arguments, and a JavaScript function of one clause begins with a guard. The
tests are read as the targets read them, and what they select is what the function is defined to
select.

* `Comparison`, `passes?`: what a test on a number of arguments says.
* `Case`, `cases`: the cases of a function, in the order in which a target writes them.
* `firstPassing?_cases`: the first case whose test passes has the clause that the function takes.
* `JavaScript.emitLambda_multi`, `Ruby.emitLambda_multi`: the text of a function in terms of them.
* `JavaScript.rejects_iff`: the guard of a function of one clause.
-/

namespace ScriptLisp

namespace Target

/-! ### Tests -/

/-- How a number is compared with a bound. -/
inductive Comparison where
  | equal
  | notEqual
  | atLeast
  | below

/-- Whether a number compares so with a bound. -/
def Comparison.holds (comparison : Comparison) (count bound : Nat) : Bool :=
  match comparison with
  | equal => count == bound
  | notEqual => count != bound
  | atLeast => bound ≤ count
  | below => count < bound

/-- The tokens that a target compares numbers with. -/
def comparisons : Target → List (String × Comparison)
  | javascript => [("===", .equal), ("!==", .notEqual), (">=", .atLeast), ("<", .below)]
  | ruby => [("==", .equal), ("!=", .notEqual), (">=", .atLeast), ("<", .below)]

/-- What a text says about a number of arguments if it is a test on their length: the name of the
arguments with `.length`, a token and a numeral, separated by blanks. -/
def passes? (target : Target) (args test : String) (count : Nat) : Option Bool := do
  let compared ← test.toList.dropPrefix? (args ++ ".length ").toList
  let token := compared.takeWhile (· != ' ')
  let numeral := (compared.dropWhile (· != ' ')).drop 1
  let comparison ← target.comparisons.lookup (String.ofList token)
  if !numeral.isEmpty && numeral.all Char.isDigit then
    return comparison.holds count (Nat.ofDigitChars 10 numeral 0)
  else none

/-- Cutting a text at a character takes what stands before its first occurrence. -/
theorem cut_at {stop : Char} {before : List Char} (absent : stop ∉ before) (behind : List Char) :
    (before ++ stop :: behind).takeWhile (· != stop) = before ∧
      (before ++ stop :: behind).dropWhile (· != stop) = stop :: behind := by
  have upTo : ∀ c ∈ before, (c != stop) = true := by
    intro c member
    rw [bne_iff_ne]
    rintro rfl
    exact absent member
  rw [List.takeWhile_append_of_pos upTo, List.dropWhile_append_of_pos upTo]
  simp

/-- A test that is written with one of the tokens means the comparison of this token. -/
theorem passes?_written (target : Target) (token : String) {comparison : Comparison}
    (listed : target.comparisons.lookup token = some comparison) (solid : ' ' ∉ token.toList)
    (args : String) (count bound : Nat) :
    target.passes? args (args ++ ".length " ++ (token ++ " ") ++ toString bound) count =
      some (comparison.holds count bound) := by
  have written : (args ++ ".length " ++ (token ++ " ") ++ toString bound).toList =
      (args ++ ".length ").toList ++ (token.toList ++ ' ' :: Nat.toDigits 10 bound) := by
    simp
  have compared := List.dropPrefix?_append_of_beq (token.toList ++ ' ' :: Nat.toDigits 10 bound)
    (beq_self_eq_true (args ++ ".length ").toList)
  obtain ⟨before, behind⟩ := cut_at solid (Nat.toDigits 10 bound)
  have digits : ∀ c ∈ Nat.toDigits 10 bound, c.isDigit = true :=
    fun _ => Nat.isDigit_of_mem_toDigits (by decide) (by decide)
  rw [passes?, written, compared]
  simpa [before, behind, listed] using digits

/-! ### Cases -/

/-- A case of a function of several clauses: the text of its test, and its clause. -/
structure Case where
  test : String
  clause : Clause

/-- The name by which the tests of a function refer to its arguments. A JavaScript function that
goes back to its beginning keeps them under a name of its own. -/
def argumentsName (target : Target) (clauses : List Clause) : String :=
  match target with
  | javascript =>
    if clauses.any fun c => Node.anyRecurs c.body then JavaScript.heldArguments else "arguments"
  | ruby => Ruby.heldArguments

/-- The test that a target writes for some parameters. -/
def clauseTest (target : Target) (args : String) (params : Params) : String :=
  match target with
  | javascript => JavaScript.clauseTest args params
  | ruby => Ruby.clauseTest params

/-- The cases of a function of several clauses, in the order in which a target writes them. -/
def cases (target : Target) (clauses : List Clause) : List Case :=
  (fixedFirst (·.params.isVariadic) clauses).map fun c =>
    ⟨target.clauseTest (target.argumentsName clauses) c.params, c⟩

/-- The clause of the first case whose test a number of arguments passes. -/
def firstPassing? (target : Target) (args : String) (cases : List Case) (count : Nat) :
    Option Clause :=
  (cases.find? fun case => target.passes? args case.test count == some true).map (·.clause)

/-- The test for some parameters says that they accept the arguments. -/
theorem passes?_clauseTest (target : Target) (clauses : List Clause) (params : Params)
    (count : Nat) :
    target.passes? (target.argumentsName clauses)
      (target.clauseTest (target.argumentsName clauses) params) count =
        some (params.accepts count) := by
  rw [Params.accepts]
  cases target with
  | javascript =>
    simp only [clauseTest, JavaScript.clauseTest]
    split
    · exact passes?_written javascript ">=" rfl (by decide) _ count params.required
    · exact passes?_written javascript "===" rfl (by decide) _ count params.required
  | ruby =>
    simp only [clauseTest, Ruby.clauseTest, argumentsName]
    split
    · exact passes?_written ruby ">=" rfl (by decide) _ count params.required
    · exact passes?_written ruby "==" rfl (by decide) _ count params.required

theorem find?_fixedFirst {α : Type} (isVariadic p : α → Bool) (list : List α) :
    (fixedFirst isVariadic list).find? p =
      (list.find? fun a => !isVariadic a && p a).or (list.find? fun a => isVariadic a && p a) := by
  simp [fixedFirst, List.find?_filter]

/-- The first case that passes has the clause that takes this number of arguments; if there is none,
then none passes. -/
theorem firstPassing?_cases (target : Target) (clauses : List Clause) (count : Nat) :
    target.firstPassing? (target.argumentsName clauses) (target.cases clauses) count =
      (Lambda.multi clauses).clauseFor? count := by
  rw [firstPassing?, cases, List.find?_map, Option.map_map, Lambda.clauseFor?_eq]
  have same : ((fun case : Case => target.passes? (target.argumentsName clauses) case.test count ==
      some true) ∘ fun c : Clause =>
        ⟨target.clauseTest (target.argumentsName clauses) c.params, c⟩) =
      fun c => c.params.accepts count := by
    funext c
    rw [Function.comp_apply, passes?_clauseTest]
    cases c.params.accepts count <;> rfl
  rw [same, find?_fixedFirst]
  exact Option.map_id'

end Target

/-! ### JavaScript -/

namespace JavaScript

open Target

/-- The text of a clause of a function of several. -/
def clauseText (clause : Clause) : String :=
  functionText clause.params (restBinding clause.params ++ " ".intercalate (bodyTexts clause.body))

/-- The text of a case: the clause is called if the test passes. -/
def caseText (args : String) (case : Case) : String :=
  "if (" ++ case.test ++ ") " ++ braced ("return " ++ clauseText case.clause ++ ".apply(this, "
    ++ args ++ ");")

/-- The cases in turn, and then the complaint that none passes. If a clause goes back, the arguments
are kept, and going back tries the cases again. -/
def dispatcher (recurs : Bool) (args : String) (cases : List Case) : String :=
  let tries := " ".intercalate (cases.map (caseText args)) ++ " " ++ arityComplaint args ++ ");"
  "(function()" ++ braced (if recurs then
      "var " ++ heldArguments ++ "=arguments; " ++
        trampoline tries [heldArguments ++ "=" ++ caught ++ ".args;"]
    else tries) ++ ")"

theorem clauseTexts_eq_map (clauses : List Clause) :
    clauseTexts clauses =
      clauses.map fun clause => (clause.params, " ".intercalate (bodyTexts clause.body)) := by
  induction clauses with
  | nil => rfl
  | cons clause clauses ih =>
    obtain ⟨params, body⟩ := clause
    rw [clauseTexts, ih]
    rfl

theorem emitLambda_multi (clauses : List Clause) :
    emitLambda (.multi clauses) = .ok
      (dispatcher (clauses.any fun c => Node.anyRecurs c.body) (javascript.argumentsName clauses)
        (javascript.cases clauses)) := by
  rw [emitLambda_eq]
  simp only [lambdaText, clauseTexts_eq_map, dispatchText, fixedFirst_map, List.map_map, cases,
    argumentsName, dispatcher]
  split
  · rfl
  · rfl

/-! ### Guards -/

/-- The test of the guard that some code begins with: if it passes, an error is thrown. -/
def guardTest? (code : String) : Option String := do
  let inside ← code.toList.dropPrefix? "if (".toList
  let _ ← (inside.dropWhile (· != ')')).dropPrefix? ") \x7b throw ".toList
  return String.ofList (inside.takeWhile (· != ')'))

/-- Whether the guard that some code begins with rejects a number of arguments. -/
def rejects (code : String) (count : Nat) : Bool :=
  (guardTest? code).bind (javascript.passes? "arguments" · count) == some true

theorem guardTest?_written {test : String} (inner : ')' ∉ test.toList) (rest : String) :
    guardTest? ("if (" ++ test ++ ") \x7b throw " ++ rest) = some test := by
  have written : ("if (" ++ test ++ ") \x7b throw " ++ rest).toList =
      "if (".toList ++ (test.toList ++ ')' :: (" \x7b throw ".toList ++ rest.toList)) := by
    simp
  have inside := List.dropPrefix?_append_of_beq
    (test.toList ++ ')' :: (" \x7b throw ".toList ++ rest.toList)) (beq_self_eq_true "if (".toList)
  have throws := List.dropPrefix?_append_of_beq rest.toList
    (beq_self_eq_true ") \x7b throw ".toList)
  obtain ⟨before, behind⟩ := cut_at inner (" \x7b throw ".toList ++ rest.toList)
  have closing : ')' :: (" \x7b throw ".toList ++ rest.toList) =
      ") \x7b throw ".toList ++ rest.toList := by rfl
  rw [← closing] at throws
  simp only [guardTest?, written, inside, Option.bind_eq_bind, Option.bind_some, before, behind,
    throws, String.ofList_toList]
  rfl

theorem rejects_written {token : String} {comparison : Comparison}
    (listed : javascript.comparisons.lookup token = some comparison)
    (solid : ' ' ∉ token.toList ∧ ')' ∉ token.toList) (count bound : Nat) (rest : String) :
    rejects ("if (" ++ ("arguments" ++ ".length " ++ (token ++ " ") ++ toString bound) ++
      ") \x7b throw " ++ rest) count = comparison.holds count bound := by
  have inner : ')' ∉ ("arguments" ++ ".length " ++ (token ++ " ") ++ toString bound).toList := by
    have digits : ')' ∉ Nat.toDigits 10 bound := fun member =>
      absurd (Nat.isDigit_of_mem_toDigits (by decide) (by decide) member) (by decide)
    simpa [solid.2] using digits
  rw [rejects, guardTest?_written inner, Option.bind_some, passes?_written _ _ listed solid.1]
  cases comparison.holds count bound <;> rfl

theorem exists_arityComplaint (args : String) :
    ∃ message, arityComplaint args = "throw " ++ message := by
  obtain ⟨message, start⟩ :
      ∃ message, "throw new Error('wrong number of arguments, got: ' + " = "throw " ++ message :=
    ⟨"new Error('wrong number of arguments, got: ' + ", by rfl⟩
  refine ⟨message ++ (args ++ ".length"), ?_⟩
  unfold arityComplaint
  rw [start, String.append_assoc, String.append_assoc]

/-- A guard that is written with one of the tokens rejects what its comparison holds of. -/
theorem rejects_guard {start : String} (token : String) {comparison : Comparison}
    (written : start = "if (" ++ ("arguments" ++ ".length " ++ (token ++ " ")))
    (listed : javascript.comparisons.lookup token = some comparison)
    (solid : ' ' ∉ token.toList ∧ ')' ∉ token.toList) (count bound : Nat)
    (before expected after rest : String) :
    rejects (start ++ toString bound ++ ") " ++
      braced (arityComplaint "arguments" ++ before ++ expected ++ after) ++ " " ++ rest) count =
        comparison.holds count bound := by
  obtain ⟨message, complaint⟩ := exists_arityComplaint "arguments"
  have brace : ") " ++ "\x7b " ++ "throw " = ") \x7b throw " := by rfl
  have whole := rejects_written listed solid count bound
    (message ++ before ++ expected ++ after ++ " \x7d" ++ " " ++ rest)
  rw [← whole, written, complaint, braced, ← brace]
  simp only [String.append_assoc]

/-- The guard rejects the numbers of arguments that the parameters do not accept. Functions that
accept every number have no guard, but begin with the binding of their parameter. -/
theorem rejects_arityGuard (params : Params) (body : String) (count : Nat) :
    rejects (arityGuard params ++ (restBinding params ++ body)) count = !params.accepts count := by
  unfold arityGuard Params.accepts
  cases variadic : params.isVariadic with
  | false =>
    simp only [Bool.false_eq_true, if_false]
    exact rejects_guard "!==" (by rfl) rfl (by decide) count params.required _ _ _ _
  | true =>
    simp only [if_true]
    split
    · rename_i zero
      obtain ⟨name, given⟩ := Option.isSome_iff_exists.mp variadic
      have unguarded (more : String) : guardTest? ("var " ++ more) = none := by
        unfold guardTest?
        rw [String.toList_append]
        rfl
      simp only [restBinding, given, String.empty_append, String.append_assoc, rejects, unguarded,
        zero, Nat.zero_le, decide_true]
      rfl
    · have guard := rejects_guard "<" (by rfl) rfl (by decide) count params.required
      refine (guard _ _ _ _).trans ?_
      rw [Comparison.holds, ← decide_not, decide_eq_decide, Nat.not_le]

end JavaScript

/-! ### Ruby -/

namespace Ruby

open Target

/-- A clause with the text of its body. -/
def written (clause : Clause) : Except Failure (Params × String) :=
  return (clause.params, bodyText (← emitAll clause.body))

/-- The text of a case: the clause is called if the test passes. -/
def caseText (case : Case) : Except Failure String := do
  let (params, body) ← written case.clause
  return case.test ++ " then " ++ functionText params body ++ "[*" ++ heldArguments ++ "]"

/-- The cases in turn, and then the complaint that none passes. -/
def dispatcher (cases : List String) : String :=
  "lambda " ++ braced ("|*" ++ heldArguments ++ "| if " ++ " elsif ".intercalate cases ++
    " else raise(ArgumentError, \"wrong number of arguments, got: #\x7b" ++ heldArguments ++
    ".length\x7d\") end")

theorem mapM_returning {ε α β γ : Type} (f : α → Except ε β) (g : β → γ) (list : List α) :
    (list.mapM fun a => do return g (← f a)) = do return (← list.mapM f).map g := by
  induction list with
  | nil => rfl
  | cons a rest ih =>
    rw [List.mapM_cons, List.mapM_cons, ih]
    cases f a with
    | error => rfl
    | ok b => cases rest.mapM f <;> rfl

theorem emitLambda_multi_written (clauses : List Clause) :
    emitLambda (.multi clauses) =
      do return dispatchText (← (fixedFirst (·.params.isVariadic) clauses).mapM written) := by
  rw [emitLambda, emitClauses_eq_map, inTrialOrder, fixedFirst_map, List.mapM_map]
  refine congrArg (fun write : Clause → Except Failure (Params × String) => do
    return dispatchText (← (fixedFirst (fun c : Clause => c.params.isVariadic) clauses).mapM write))
    (funext fun clause => ?_)
  rw [Function.comp_apply, written]
  cases emitAll clause.body <;> rfl

/-- Each case stands where its clause is tried, and nothing else decides what is called. -/
theorem emitLambda_multi (clauses : List Clause) :
    emitLambda (.multi clauses) = do return dispatcher (← (ruby.cases clauses).mapM caseText) := by
  have each : (caseText ∘ fun c : Clause =>
      ⟨ruby.clauseTest (ruby.argumentsName clauses) c.params, c⟩) = fun c => do
        let clause ← written c
        return Ruby.clauseTest clause.1 ++ " then " ++ functionText clause.1 clause.2 ++ "[*" ++
          heldArguments ++ "]" := by
    funext c
    rw [Function.comp_apply, caseText, written]
    cases emitAll c.body <;> rfl
  rw [emitLambda_multi_written, cases, List.mapM_map, each, mapM_returning written]
  cases (fixedFirst (·.params.isVariadic) clauses).mapM written <;> rfl

end Ruby

/-! ### Selection -/

namespace Target

open Analysis

/-- Both targets write a function of several clauses as the complaint behind its cases, and the
first case that a number of arguments passes is that of the clause that takes them; if there is
none, no case passes. The guard of a JavaScript function of one clause rejects the numbers of
arguments that the clause does not accept. Where a function of several clauses is accepted, it is
also accepted with its clauses in any other order, and takes the same ones. -/
theorem clause_selection :
    (∀ clauses, JavaScript.emitLambda (.multi clauses) = .ok
      (JavaScript.dispatcher (clauses.any fun c => Node.anyRecurs c.body)
        (javascript.argumentsName clauses) (javascript.cases clauses))) ∧
    (∀ clauses, Ruby.emitLambda (.multi clauses) =
      do return Ruby.dispatcher (← (ruby.cases clauses).mapM Ruby.caseText)) ∧
    (∀ (target : Target) clauses count,
      target.firstPassing? (target.argumentsName clauses) (target.cases clauses) count =
        (Lambda.multi clauses).clauseFor? count) ∧
    (∀ clause, ∃ code,
      JavaScript.emitLambda (.single clause) = .ok (JavaScript.functionText clause.params code) ∧
        ∀ count, JavaScript.rejects code count = !clause.params.accepts count) ∧
    ∀ step form definition session clauses after,
      function step form definition session = (.ok (.multi clauses), after) →
        ∀ written : List Clause, written.Perm clauses →
          arityFault? (written.map (·.params)) = none ∧
            ∀ count, (Lambda.multi written).clauseFor? count =
              (Lambda.multi clauses).clauseFor? count := by
  refine ⟨JavaScript.emitLambda_multi, Ruby.emitLambda_multi, firstPassing?_cases,
    fun clause => ?_, fun step form definition session clauses after accepted written perm => ?_⟩
  · obtain ⟨params, body⟩ := clause
    refine ⟨_, JavaScript.emitLambda_eq _, fun count => ?_⟩
    rw [String.append_assoc]
    exact JavaScript.rejects_arityGuard params _ count
  · have rules := arityFault?_iff_rules.mp (arityFault?_of_function accepted)
    refine ⟨arityFault?_iff_rules.mpr (rules.perm (perm.map _)), ?_⟩
    exact clauseFor?_eq_of_perm rules perm

/-- The definition `([x & more] more) ([x] x)`, in which both clauses accept one argument. -/
def overlapping : List Form :=
  [.list [.vector [.symbol "x", .symbol "&", .symbol "more"], .symbol "more"],
    .list [.vector [.symbol "x"], .symbol "x"]]

/-- The clauses that it is understood as. -/
def overlappingClauses : List Clause :=
  [.mk ⟨[⟨none, "x"⟩], some ⟨none, "more"⟩⟩ [.reference ⟨none, "more"⟩],
    .mk ⟨[⟨none, "x"⟩], none⟩ [.reference ⟨none, "x"⟩]]

theorem clause_selection_overlapping :
    function (analyze 2) .nil overlapping (.new javascript) =
        (.ok (.multi overlappingClauses), .new javascript) ∧
      overlappingClauses.reverse.Perm overlappingClauses ∧
      arityFault? (overlappingClauses.reverse.map (·.params)) = none ∧
      ∀ count, (Lambda.multi overlappingClauses.reverse).clauseFor? count =
        (Lambda.multi overlappingClauses).clauseFor? count := by
  have accepted : function (analyze 2) .nil overlapping (.new javascript) =
      (.ok (.multi overlappingClauses), .new javascript) := by rfl
  have perm : overlappingClauses.reverse.Perm overlappingClauses := List.reverse_perm _
  exact ⟨accepted, perm, clause_selection.2.2.2.2 _ _ _ _ _ _ accepted _ perm⟩

end Target

end ScriptLisp
