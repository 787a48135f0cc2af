import ScriptLisp.Proofs.Analysis.Making

/-!
Literals over a whole session. However many forms are analyzed one after the other, and whether they
are accepted or not, the literals in all their nodes come from the same tables; so two of them are
the same instance exactly if they were written alike, and an instance never changes its value.

* `analyzeEach`: forms one after the other in one session.
* `analyzeEach_made`: what all these analyses make, in the tables at the end.
* `literals_canonical`: instances, literals and their texts determine each other.
-/

namespace ScriptLisp

/-- An instance of a literal occurs in some nodes, at any depth. -/
def Node.InstanceIn (nodes : List Node) (index : Nat) (literal : Literal) : Prop :=
  ∃ node ∈ nodes, ∃ inner, Within subnodes inner node ∧ inner.instance? = some (index, literal)

namespace Session

open Node

/-- Analyzes forms one after the other, each with its own fuel: the nodes of those that are
accepted, and the session at the end. A form that fails leaves its effects behind. -/
def analyzeEach : List (Nat × Form) → Session → List Node × Session
  | [], session => ([], session)
  | (fuel, form) :: rest, session =>
    match Analysis.analyze fuel form session with
    | (.ok node, after) => ((node :: (analyzeEach rest after).1), (analyzeEach rest after).2)
    | (.error _, after) => analyzeEach rest after

/-- Every node is made of literals that the tables at the end hold. -/
theorem analyzeEach_made (runs : List (Nat × Form)) (session : Session)
    (canonical : session.interned.Canonical) :
    (analyzeEach runs session).2.interned.Canonical ∧
      session.interned.Extends (analyzeEach runs session).2.interned ∧
      ∀ node ∈ (analyzeEach runs session).1,
        Made (analyzeEach runs session).2.interned .inner node := by
  induction runs generalizing session with
  | nil => exact ⟨canonical, .refl _, List.forall_mem_nil _⟩
  | cons run rest ih =>
    obtain ⟨fuel, form⟩ := run
    rw [analyzeEach]
    rcases outcome : Analysis.analyze fuel form session with ⟨halt | node, after⟩
    · have step := Analysis.yields_analyze .empty fuel True form session fun _ => trivial
      rw [outcome] at step
      obtain ⟨keeps, grows, _⟩ := step
      obtain ⟨ends, growsOn, made⟩ := ih after (keeps canonical)
      exact ⟨ends, grows.trans growsOn, made⟩
    · have step := Analysis.yields_analyze (analyzeEach rest after).2.interned fuel True form
        session fun _ => trivial
      rw [outcome] at step
      obtain ⟨keeps, grows, gives⟩ := step
      obtain ⟨ends, growsOn, made⟩ := ih after (keeps canonical)
      refine ⟨ends, grows.trans growsOn, List.forall_mem_cons.mpr ⟨?_, made⟩⟩
      exact gives growsOn node rfl

/-- In a session from its start on, two instances that occur in any of its nodes are the same
exactly if their literals are, which is exactly if they were written alike; and an instance leads to
the literal that it was taken for. -/
theorem literals_canonical (target : Target) (runs : List (Nat × Form)) (index place : Nat)
    (literal other : Literal)
    (first : InstanceIn (analyzeEach runs (new target)).1 index literal)
    (second : InstanceIn (analyzeEach runs (new target)).1 place other) :
    (analyzeEach runs (new target)).2.interned.Holds index literal ∧
      ((literal.kind, index) = (other.kind, place) ↔ literal = other) ∧
      ∃ form written : Form, form.literal? = some literal ∧ written.literal? = some other ∧
        (literal = other ↔ form = written) := by
  obtain ⟨once, _, made⟩ := analyzeEach_made runs (new target) InternTable.canonical_empty
  obtain ⟨node, member, inner, within, given⟩ := first
  obtain ⟨node', member', inner', within', given'⟩ := second
  obtain ⟨holds, form, read⟩ := (made node member).holds_within within given
  obtain ⟨holds', written, read'⟩ := (made node' member').holds_within within' given'
  refine ⟨holds, once.same_place_iff holds holds', form, written, read, read', ?_⟩
  constructor
  · rintro rfl
    exact Form.eq_of_literal? read read'
  · rintro rfl
    exact Option.some.inj (read.symm.trans read')

/-- The keyword `:a/b` as data, a form that is rejected after it took an instance of the same
keyword, and the keyword as code. -/
def sameKeyword : List (Nat × Form) :=
  [(3, .list [.symbol "quote", .vector [.keyword "a/b"]]),
    (3, .list [.symbol "loop", .vector [.symbol "x", .keyword "a/b", .nil, .nil]]),
    (3, .keyword "a/b")]

theorem literals_canonical_sameKeyword :
    InstanceIn (analyzeEach sameKeyword (new .ruby)).1 0 (.keyword ⟨some "a", "b"⟩) ∧
      (analyzeEach sameKeyword (new .ruby)).2.interned.Holds 0 (.keyword ⟨some "a", "b"⟩) := by
  have nodes : (analyzeEach sameKeyword (new .ruby)).1 =
      [.vector [.keyword ⟨0, ⟨some "a", "b"⟩⟩], .keyword ⟨0, ⟨some "a", "b"⟩⟩] := by rfl
  have occurs : InstanceIn (analyzeEach sameKeyword (new .ruby)).1 0
      (.keyword ⟨some "a", "b"⟩) := by
    rw [nodes]
    exact ⟨_, List.mem_cons_self, _, .part List.mem_cons_self .self, rfl⟩
  exact ⟨occurs, (literals_canonical .ruby sameKeyword 0 0 _ _ occurs occurs).1⟩

end Session

end ScriptLisp
