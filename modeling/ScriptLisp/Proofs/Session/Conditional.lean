import ScriptLisp.Proofs.Eval.Conditional
import ScriptLisp.Proofs.Session.Replay

/-!
Conditionals with many clauses mean conditionals inside one another. The clauses of `:else` may
stand anywhere: the last one says what holds when no test does. The other clauses keep their order.

Both are read in a session that knows their literals already. There they are read as the same tests,
consequents and alternate, and what is left to compare is how these are put together.

* `Form.condAsIfs`: the conditionals that one with many clauses means.
* `Settles`: how a form is read where all its literals are known.
* `found_branches`: the clauses that were read so far, by induction on those that are left.
* `settles_cond`: both forms are read as the same parts.
* `PlainCode`: code without macros, which is understood in every session without macros.
* `ends_cond_iff_ifs_afterwards`: both forms are evaluated alike where one is understood after the
  other.
* `cond_means_ifs`: they are in all sessions, with instances of literals from common tables.
-/

namespace ScriptLisp

/-! ### Clauses -/

namespace Form

/-- The test of the clauses that say what holds when no test does. -/
def isElse (test : Form) : Bool :=
  test matches .keyword "else"

/-- The tests with their consequents. -/
def testedClauses (operands : List Form) : List (Form × Form) :=
  (pairs operands).filter fun clause => !isElse clause.1

/-- The consequent of the last `:else`. -/
def lastElse? (operands : List Form) : Option Form :=
  ((pairs operands).filter fun clause => isElse clause.1).getLast?.map (·.2)

/-- Conditionals `(if test consequent alternate)`, every one the alternate of the one before. -/
def nestedIfs : List (Form × Form) → Form → Form
  | [], otherwise => otherwise
  | clause :: rest, otherwise =>
    .list [.symbol "if", clause.1, clause.2, nestedIfs rest otherwise]

/-- What a conditional with these clauses means, with one test at a time. -/
def condAsIfs (operands : List Form) : Form :=
  nestedIfs (testedClauses operands) ((lastElse? operands).getD .nil)

theorem mem_of_mem_pairs {forms : List Form} {clause : Form × Form}
    (member : clause ∈ pairs forms) : clause.1 ∈ forms ∧ clause.2 ∈ forms := by
  match forms with
  | [] | [_] => cases member
  | test :: consequent :: rest =>
    rcases List.mem_cons.mp member with rfl | later
    · simp
    · have ⟨first, second⟩ := mem_of_mem_pairs later
      exact ⟨by simp [first], by simp [second]⟩

section Clauses

variable {test : Form} (consequent : Form) (rest : List Form)

/-- A clause under `:else` is not tested. -/
theorem testedClauses_of_else (isElse : test.isElse = true) :
    testedClauses (test :: consequent :: rest) = testedClauses rest :=
  List.filter_cons_of_neg (by simp [isElse])

theorem testedClauses_of_not_else (noElse : test.isElse = false) :
    testedClauses (test :: consequent :: rest) = (test, consequent) :: testedClauses rest :=
  List.filter_cons_of_pos (by simp [noElse])

/-- An `:else` counts unless another one follows. -/
theorem lastElse?_of_else (isElse : test.isElse = true) :
    lastElse? (test :: consequent :: rest) = (lastElse? rest).or (some consequent) := by
  rw [lastElse?, lastElse?, pairs, List.filter_cons_of_pos (by exact isElse), List.getLast?_cons]
  cases ((pairs rest).filter fun clause => clause.1.isElse).getLast? with
  | none => rfl
  | some last => rfl

theorem lastElse?_of_not_else (noElse : test.isElse = false) :
    lastElse? (test :: consequent :: rest) = lastElse? rest := by
  rw [lastElse?, lastElse?, pairs, List.filter_cons_of_neg (by simp [noElse])]

end Clauses

end Form

namespace Session

open Stateful (Ends ends_iff_of_eventually)
open Analysis Grammar
open Eval (run)

/-! ### Reading without macros -/

/-- Without macros, nothing is expanded. -/
theorem ends_analyze_iff {session : Session} (noMacros : session.registry = []) (form : Form)
    (ending : Except FormFault Node) (after : Session) :
    Ends (analyze · form) session ending after ↔
      Ends (fun fuel => unexpanded (analyze fuel) form) session ending after := by
  have same : ∀ fuel, 0 ≤ fuel →
      analyze (fuel + 1) form session = unexpanded (analyze fuel) form session := by
    intro fuel _
    rw [analyze_run, expandUse_of_no_macros fuel form noMacros]
  exact ends_iff_of_eventually (steady_analyze form)
    (fun fuel => approximates_unexpanded (approximates_analyze fuel) form) same ending after

/-- In this session a form is read as a node, and the session stays as it is. -/
def Settles (session : Session) (form : Form) (node : Node) : Prop :=
  Ends (analyze · form) session (.ok node) session

theorem settles_if {session : Session} (noMacros : session.registry = [])
    {test consequent alternate : Form} {tested chosen otherwise : Node}
    (first : Settles session test tested) (second : Settles session consequent chosen)
    (third : Settles session alternate otherwise) :
    Settles session (.list [.symbol "if", test, consequent, alternate])
      (.conditional [(tested, chosen.inTailPosition)] otherwise.inTailPosition) := by
  apply (ends_analyze_iff noMacros _ _ _).mpr
  apply first.bind (steady_analyze test)
  · intro fuel
    exact (approximates_analyze fuel consequent).bind fun _ =>
      (approximates_analyze fuel alternate).returning
  apply second.bind (steady_analyze consequent)
  · intro fuel
    exact (approximates_analyze fuel alternate).returning
  exact third.bind (steady_analyze alternate) (.const _) ⟨0, rfl⟩

/-! ### Reading clauses -/

/-- What a clause is read as: its test, and its consequent in tail position. -/
def SettlesClause (session : Session) (clause : Form × Form) (branch : Node × Node) : Prop :=
  Settles session clause.1 branch.1 ∧
    ∃ consequent, Settles session clause.2 consequent ∧ branch.2 = consequent.inTailPosition

/-- By induction on the clauses, each as a conditional with the rest in its place for the alternate.
-/
theorem settles_nestedIfs {session : Session} (noMacros : session.registry = [])
    {clauses : List (Form × Form)} {branches : List (Node × Node)}
    (each : List.Forall₂ (SettlesClause session) clauses branches) {form : Form} {otherwise : Node}
    (last : Settles session form otherwise) :
    Settles session (.nestedIfs clauses form) (.nested branches otherwise) := by
  induction each with
  | nil => exact last
  | @cons _ branch _ _ both _ ih =>
    obtain ⟨test, marked⟩ := branch
    obtain ⟨tested, consequent, chosen, rfl⟩ := both
    exact settles_if noMacros tested chosen ih

/-- The branches found so far are those of the clauses read so far. -/
structure Found (session : Session) (clauses : List (Form × Form)) (otherwise : Option Form)
    (found : Branches) : Prop where
  tested : List.Forall₂ (SettlesClause session) clauses found.tested
  otherwise : Option.Rel
    (fun form node => ∃ alternate, Settles session form alternate ∧ node = alternate.inTailPosition)
    otherwise found.otherwise

theorem replays_branches (fuel : Nat) (operands : List Form) (found : Branches) :
    Replays (branches (analyze fuel) operands found) := by
  have composed : Composed (analyze fuel) (analyze fuel) .empty (MadeBranches .empty found) _
      (branches (analyze fuel) operands found) _ := composed_branches operands id
  exact .of_composed (replays_analyze fuel) composed

/-- The clauses that were found are the tested ones in order, and the last `:else`. -/
theorem found_branches {session : Session} (noMacros : session.registry = []) {fuel : Nat}
    {operands : List Form} {clauses : List (Form × Form)} {otherwise : Option Form}
    {found result : Branches} (before : Found session clauses otherwise found)
    (ran : branches (analyze fuel) operands found session = (.ok result, session)) :
    Found session (clauses ++ Form.testedClauses operands)
      ((Form.lastElse? operands).or otherwise) result := by
  have each : ∀ form, Replays (analyze fuel form) := replays_analyze fuel
  have others := replays_branches fuel
  fun_induction branches (analyze fuel) operands found generalizing clauses otherwise with
  | case1 test consequent rest found isElse ih =>
    obtain ⟨node, read, ran⟩ := (each consequent).settled_bind (fun _ => others rest _) noMacros ran
    rw [Form.testedClauses_of_else consequent rest isElse,
      Form.lastElse?_of_else consequent rest isElse, Option.or_assoc]
    exact ih node ⟨before.tested, .some ⟨node, ⟨fuel, read⟩, rfl⟩⟩ ran
  | case2 test consequent rest found noElse ih =>
    rw [Form.testedClauses_of_not_else consequent rest (eq_false_of_ne_true noElse),
      Form.lastElse?_of_not_else consequent rest (eq_false_of_ne_true noElse)]
    obtain ⟨tested, readTest, ran⟩ := (each test).settled_bind
      (fun _ => (each consequent).bind fun _ => others rest _) noMacros ran
    obtain ⟨node, read, ran⟩ := (each consequent).settled_bind (fun _ => others rest _) noMacros ran
    rw [List.append_cons]
    refine ih tested node ⟨?_, before.otherwise⟩ ran
    exact List.rel_append before.tested (.cons ⟨⟨fuel, readTest⟩, node, ⟨fuel, read⟩, rfl⟩ .nil)
  | case3 operands found noPair =>
    cases ran
    have none : Form.pairs operands = [] := by
      rw [Form.pairs.eq_def]
      split
      · exact absurd rfl (noPair _ _ _)
      · rfl
    rw [Form.testedClauses, Form.lastElse?, none]
    simpa using before

theorem settles_nil {session : Session} (noMacros : session.registry = []) {node : Node}
    (ran : Analysis.nil session = (.ok node, session)) :
    Settles session .nil node ∧ node = node.inTailPosition := by
  refine ⟨(ends_analyze_iff noMacros _ _ _).mpr ⟨0, ran⟩, ?_⟩
  obtain ⟨given, -⟩ := Prod.mk.inj ran
  cases given
  rfl

/-- How a conditional is put together from its branches. -/
def finished (found : Branches) : InSession Node := do
  match found.otherwise with
  | some otherwise => return .conditional found.tested otherwise
  | none => return .conditional found.tested (← Analysis.nil)

theorem replays_nil : Replays Analysis.nil := by
  have composed : Composed (analyze 0) (analyze 0) .empty True (Node.Made .empty .inner)
      Analysis.nil Analysis.nil := composed_nil
  exact .of_composed (replays_analyze 0) composed

theorem replays_finished (found : Branches) : Replays (finished found) := by
  unfold finished
  split
  · exact .pure _
  · exact replays_nil.bind fun _ => .pure _

/-- What holds when no test does was given, or it is `nil`. -/
theorem settles_finished {session : Session} (noMacros : session.registry = [])
    {clauses : List (Form × Form)} {otherwise : Option Form} {found : Branches}
    (all : Found session clauses otherwise found) {node : Node}
    (ran : finished found session = (.ok node, session)) :
    ∃ alternate, node = .conditional found.tested alternate.inTailPosition ∧
      Settles session (otherwise.getD .nil) alternate := by
  obtain ⟨tested, marked⟩ := found
  have last := all.otherwise
  cases marked with
  | some marked =>
    cases ran
    cases last with
    | some settled =>
      obtain ⟨alternate, settled, rfl⟩ := settled
      exact ⟨alternate, rfl, settled⟩
  | none =>
    cases last
    obtain ⟨alternate, read, ran⟩ := replays_nil.settled_bind (fun _ => .pure _) noMacros ran
    obtain ⟨settled, unmarked⟩ := settles_nil noMacros read
    cases ran
    exact ⟨alternate, congrArg _ unmarked, settled⟩

/-- A conditional with many clauses is read as its tests in order, and conditionals inside one
another are read as the same tests. -/
theorem settles_cond {session : Session} (noMacros : session.registry = []) {operands : List Form}
    {node : Node} (settles : Settles session (.list (.symbol "cond" :: operands)) node) :
    ∃ branches otherwise, node = .conditional branches otherwise.inTailPosition ∧
      Settles session (.condAsIfs operands) (.nested branches otherwise) := by
  obtain ⟨fuel, ran⟩ := (ends_analyze_iff noMacros _ _ _).mp settles
  change Analysis.cond (analyze fuel) (.list (.symbol "cond" :: operands)) session = _ at ran
  rw [Analysis.cond] at ran
  split at ran
  · obtain ⟨found, read, ran⟩ :=
      (replays_branches fuel operands {}).settled_bind replays_finished noMacros ran
    have all := found_branches noMacros ⟨.nil, .none⟩ read
    rw [List.nil_append, Option.or_none] at all
    obtain ⟨otherwise, rfl, settled⟩ := settles_finished noMacros all ran
    exact ⟨found.tested, otherwise, rfl, settles_nestedIfs noMacros all.tested settled⟩
  · cases ran

/-! ### Code -/

/-- Code that defines no macros. -/
structure PlainCode (form : Form) : Prop where
  noneDefined : ∀ f, Form.Within Form.codeParts f form → f.head? ≠ some "defmacro"
  code : Code form

namespace PlainCode

/-- What was analyzed without macros is code. -/
theorem of_ends {form : Form} {session after : Session} {node : Node}
    (noneDefined : ∀ f, Form.Within Form.codeParts f form → f.head? ≠ some "defmacro")
    (noMacros : session.registry = [])
    (ends : Ends (analyze · form) session (.ok node) after) : PlainCode form := by
  obtain ⟨enough, decided⟩ := analyze_accepts_iff_code form noneDefined
  obtain ⟨fuel, ran⟩ := ends
  have more := (steady_analyze form).run_ok (Nat.le_max_left fuel enough) ran
  obtain ⟨accepts, -⟩ := decided _ (Nat.le_max_right fuel enough) session noMacros
  exact ⟨noneDefined, accepts.mp ⟨node, congrArg Prod.fst more⟩⟩

/-- Code without macros can be analyzed in any session without macros. -/
theorem ends {form : Form} (plain : PlainCode form) {session : Session}
    (noMacros : session.registry = []) :
    ∃ node after, Ends (analyze · form) session (.ok node) after := by
  obtain ⟨enough, decided⟩ := analyze_accepts_iff_code form plain.noneDefined
  obtain ⟨accepts, -⟩ := decided enough (Nat.le_refl _) session noMacros
  obtain ⟨node, ran⟩ := accepts.mpr plain.code
  exact ⟨node, _, enough, Prod.ext ran rfl⟩

theorem registry_of_ends {form : Form} (plain : PlainCode form) {session after : Session}
    {ending : Except FormFault Node} (noMacros : session.registry = [])
    (ends : Ends (analyze · form) session ending after) : after.registry = [] := by
  obtain ⟨fuel, ran⟩ := ends
  obtain ⟨kept, -⟩ := decides_analyze fuel plain.noneDefined session noMacros
  dsimp only at ran
  rwa [ran] at kept

/-- Operands of code are code. -/
theorem operands_of_cond {operands : List Form}
    (plain : PlainCode (.list (.symbol "cond" :: operands))) {form : Form}
    (member : form ∈ operands) : PlainCode form := by
  obtain ⟨-, below⟩ := Form.forall_within_iff.mp plain.noneDefined
  refine ⟨below form member, ?_⟩
  cases (code_special_iff rfl operands).mp plain.code with
  | cond _ each => exact each form member

theorem nil : PlainCode .nil := by
  refine ⟨Form.forall_within_iff.mpr ⟨nofun, ?_⟩, .nil⟩
  exact List.forall_mem_nil _

theorem conditional {test consequent alternate : Form} (tested : PlainCode test)
    (chosen : PlainCode consequent) (otherwise : PlainCode alternate) :
    PlainCode (.list [.symbol "if", test, consequent, alternate]) := by
  refine ⟨Form.forall_within_iff.mpr ⟨by simp [Form.head?], ?_⟩, ?_⟩
  · change ∀ part ∈ [test, consequent, alternate], _
    simp only [List.forall_mem_cons]
    exact ⟨tested.noneDefined, chosen.noneDefined, otherwise.noneDefined, List.forall_mem_nil _⟩
  · exact (code_special_iff rfl _).mpr (.choice tested.code chosen.code otherwise.code)

theorem nestedIfs {clauses : List (Form × Form)} {otherwise : Form}
    (each : ∀ clause ∈ clauses, PlainCode clause.1 ∧ PlainCode clause.2)
    (last : PlainCode otherwise) : PlainCode (.nestedIfs clauses otherwise) := by
  induction clauses with
  | nil => exact last
  | cons clause rest ih =>
    obtain ⟨⟨tested, chosen⟩, others⟩ := List.forall_mem_cons.mp each
    exact conditional tested chosen (ih others)

/-- The conditionals that stand for `cond` are made of its operands. -/
theorem condAsIfs {operands : List Form}
    (plain : PlainCode (.list (.symbol "cond" :: operands))) : PlainCode (.condAsIfs operands) := by
  have each : ∀ clause ∈ Form.pairs operands, PlainCode clause.1 ∧ PlainCode clause.2 := by
    intro clause member
    obtain ⟨first, second⟩ := Form.mem_of_mem_pairs member
    exact ⟨plain.operands_of_cond first, plain.operands_of_cond second⟩
  have tested : ∀ clause ∈ Form.testedClauses operands,
      PlainCode clause.1 ∧ PlainCode clause.2 := by
    intro clause member
    exact each clause (List.mem_of_mem_filter member)
  refine nestedIfs tested ?_
  cases last : Form.lastElse? operands with
  | none => exact nil
  | some otherwise =>
    obtain ⟨clause, found, rfl⟩ := Option.map_eq_some_iff.mp last
    exact (each clause (List.mem_of_mem_filter (List.mem_of_getLast? found))).2

end PlainCode

/-! ### Evaluation -/

/-- What was read once is read again in all later states. -/
theorem settles_of_ends {form : Form} {session after later : Session} {node : Node}
    (ends : Ends (analyze · form) session (.ok node) after) (noMacros : after.registry = [])
    (continues : Continues after later) : Settles later form node := by
  obtain ⟨fuel, ran⟩ := ends
  obtain ⟨-, -, again⟩ := replays_analyze fuel form ran noMacros
  exact ⟨fuel, again later continues⟩

/-- Without macros, analysis only adds literals. -/
theorem continues_of_ends {form : Form} {session after : Session} {node : Node}
    (ends : Ends (analyze · form) session (.ok node) after) (noMacros : after.registry = []) :
    Continues session after := by
  obtain ⟨fuel, ran⟩ := ends
  obtain ⟨-, continues, -⟩ := replays_analyze fuel form ran noMacros
  exact continues

/-- A conditional with many clauses and the conditionals that it means are evaluated alike, wherever
the two were understood, if the instances of their literals are from common tables. -/
theorem ends_cond_iff_ifs {session after other otherAfter : Session} {operands : List Form}
    {node nested : Node} {tables : InternTable}
    (understood : Ends (analyze · (.list (.symbol "cond" :: operands))) session (.ok node) after)
    (noneAfter : after.registry = []) (knows : after.interned.Extends tables)
    (understoodOther : Ends (analyze · (.condAsIfs operands)) other (.ok nested) otherAfter)
    (noneAfterOther : otherAfter.registry = []) (knowsOther : otherAfter.interned.Extends tables)
    (target : otherAfter.target = after.target) :
    ∀ environment machine ending left,
      Ends (fun fuel => run fuel environment node) machine ending left ↔
        Ends (fun fuel => run fuel environment nested) machine ending left := by
  -- Where all literals of both are known, both are understood as before.
  let common : Session := { after with interned := tables }
  have noneCommon : common.registry = [] := noneAfter
  have whole : Settles common _ node :=
    settles_of_ends understood noneAfter ⟨rfl, noneAfter, knows⟩
  have wholeOther : Settles common _ nested :=
    settles_of_ends understoodOther noneAfterOther ⟨target.symm, noneAfter, knowsOther⟩
  obtain ⟨branches, otherwise, rfl, asIfs⟩ := settles_cond noneCommon whole
  obtain ⟨⟨⟩, -⟩ := Ends.unique (steady_analyze (.condAsIfs operands)) asIfs wholeOther
  intro environment machine ending left
  exact Eval.ends_conditional_iff_nested environment branches otherwise machine ending left

/-- A session that has understood a conditional with many clauses understands the conditionals that
it means, and evaluates them alike. -/
theorem ends_cond_iff_ifs_afterwards {session after : Session} {operands : List Form} {node : Node}
    (noMacros : session.registry = [])
    (noneDefined : ∀ f, Form.Within Form.codeParts f (.list (.symbol "cond" :: operands)) →
      f.head? ≠ some "defmacro")
    (understood : Ends (analyze · (.list (.symbol "cond" :: operands))) session (.ok node) after) :
    ∃ nested last, Ends (analyze · (.condAsIfs operands)) after (.ok nested) last ∧
      ∀ environment machine ending left,
        Ends (fun fuel => run fuel environment node) machine ending left ↔
          Ends (fun fuel => run fuel environment nested) machine ending left := by
  have plain := PlainCode.of_ends noneDefined noMacros understood
  have noneAfter := plain.registry_of_ends noMacros understood
  obtain ⟨nested, last, again⟩ := plain.condAsIfs.ends noneAfter
  have noneLast := plain.condAsIfs.registry_of_ends noneAfter again
  have later := continues_of_ends again noneLast
  exact ⟨nested, last, again, ends_cond_iff_ifs understood noneAfter later.interned again noneLast
    (.refl _) later.target⟩

/-- Where there are no macros, a conditional with many clauses means conditionals inside one
another. If the former is understood and defines no macros, the latter are understood in every
session without macros for the same target. Under any bindings and on any machine both then end
with the same value, request to go back or fault and leave the same machine, or neither ends.

Closures hold the nodes of their bodies, and these the instances of literals; so the two are
compared with instances from common tables. There are such tables where one of the forms is
understood after the other, in any later state of the same session. -/
theorem cond_means_ifs {session after : Session} {operands : List Form} {node : Node}
    (noMacros : session.registry = [])
    (noneDefined : ∀ f, Form.Within Form.codeParts f (.list (.symbol "cond" :: operands)) →
      f.head? ≠ some "defmacro")
    (understood : Ends (analyze · (.list (.symbol "cond" :: operands))) session (.ok node) after) :
    Continues session after ∧
      ∀ other : Session, other.registry = [] → other.target = session.target →
        ∃ nested otherAfter,
          Ends (analyze · (.condAsIfs operands)) other (.ok nested) otherAfter ∧
          Continues other otherAfter ∧
          ∀ tables, after.interned.Extends tables → otherAfter.interned.Extends tables →
            ∀ environment machine ending left,
              Ends (fun fuel => run fuel environment node) machine ending left ↔
                Ends (fun fuel => run fuel environment nested) machine ending left := by
  have plain := PlainCode.of_ends noneDefined noMacros understood
  have noneAfter := plain.registry_of_ends noMacros understood
  have first := continues_of_ends understood noneAfter
  refine ⟨first, ?_⟩
  intro other noMacrosOther target
  obtain ⟨nested, otherAfter, understoodOther⟩ := plain.condAsIfs.ends noMacrosOther
  have noneAfterOther := plain.condAsIfs.registry_of_ends noMacrosOther understoodOther
  have second := continues_of_ends understoodOther noneAfterOther
  have sameTarget : otherAfter.target = after.target :=
    second.target.trans (target.trans first.target.symm)
  refine ⟨nested, otherAfter, understoodOther, second, ?_⟩
  intro tables knows knowsOther
  exact ends_cond_iff_ifs understood noneAfter knows understoodOther noneAfterOther knowsOther
    sameTarget

/-- The clauses of `(cond :else true false x :else (recur nil) nil y)`. -/
def twoElses : List Form :=
  [.keyword "else", .boolean true, .boolean false, .symbol "x",
    .keyword "else", .list [.symbol "recur", .nil], .nil, .symbol "y"]

/-- What `(cond :else true false x :else (recur nil) nil y)` is read as. -/
def twoElsesNode : Node :=
  .conditional
    [(.boolean ⟨1, false⟩, .reference ⟨none, "x"⟩), (.nil ⟨0, ()⟩, .reference ⟨none, "y"⟩)]
    (.recursionPoint [.nil ⟨0, ()⟩])

/-- It goes back with `nil`, as `(if false x (if nil y (recur nil)))` does. -/
theorem cond_means_ifs_twoElses :
    Form.condAsIfs twoElses =
        .list [.symbol "if", .boolean false, .symbol "x",
          .list [.symbol "if", .nil, .symbol "y", .list [.symbol "recur", .nil]]] ∧
      ∃ nested after last,
        Ends (analyze · (.list (.symbol "cond" :: twoElses))) (.new .ruby) (.ok twoElsesNode)
          after ∧
        Ends (analyze · (.condAsIfs twoElses)) after (.ok nested) last ∧
        ∀ environment machine,
          Ends (fun fuel => run fuel environment twoElsesNode) machine (.ok (.recur [.nil]))
            machine ∧
          Ends (fun fuel => run fuel environment nested) machine (.ok (.recur [.nil])) machine := by
  have understood : Ends (analyze · (.list (.symbol "cond" :: twoElses))) (.new .ruby)
      (.ok twoElsesNode) _ := ⟨6, rfl⟩
  have noneDefined : ∀ f, Form.Within Form.codeParts f (.list (.symbol "cond" :: twoElses)) →
      f.head? ≠ some "defmacro" := by
    rintro f (_ | ⟨member, deeper⟩)
    · decide
    · change _ ∈ twoElses at member
      simp only [twoElses, List.mem_cons, List.not_mem_nil, or_false] at member
      rcases member with rfl | rfl | rfl | rfl | rfl | rfl | rfl | rfl
      -- Only one clause holds code: the operand of `recur`.
      case inr.inr.inr.inr.inr.inl =>
        rcases deeper with _ | ⟨_ | ⟨_, ⟨⟩⟩, _ | ⟨⟨⟩, _⟩⟩
        · decide
        · decide
      all_goals
        rcases deeper with _ | ⟨⟨⟩, _⟩
        decide
  obtain ⟨first, means⟩ := cond_means_ifs rfl noneDefined understood
  obtain ⟨nested, last, again, second, same⟩ := means _ first.noMacros first.target
  refine ⟨rfl, nested, _, last, understood, again, fun environment machine => ?_⟩
  have goesBack : Ends (fun fuel => run fuel environment twoElsesNode) machine
      (.ok (.recur [.nil])) machine := ⟨6, rfl⟩
  exact ⟨goesBack, (same _ second.interned (.refl _) environment machine _ _).mp goesBack⟩

end Session

end ScriptLisp
