import ScriptLisp.Proofs.Analysis.Quotation
import ScriptLisp.Proofs.Eval.Literal

/-!
Quotations evaluate to their data. There are two ways from a form to a value: a macro is given its
arguments directly as values, and a quotation is first understood, which takes its names apart, and
then evaluated, which joins them again and builds its collections anew. Both come to the same value,
equal elements and keys left out in the same places.

* `literal_of_quotes`: a node that is the data of a form is a literal with the value of the form.
* `quotation_evaluates`: a quotation is understood, and evaluates to the value of its form.
-/

namespace ScriptLisp

open Stateful (Ends)

mutual

/-- The data of a form has the value of the form. -/
theorem literal_of_quotes {form : Form} {node : Node} (quotes : Quotes form node) :
    node.literal? = some (.ofForm form) := by
  match quotes with
  | .nil _ | .boolean _ | .integer _ | .rational _ _ | .decimal _ | .string _ => rfl
  | .keyword _ text => exact congrArg (some ∘ Value.keyword) (Name.display_parse text)
  | .symbol _ text => exact congrArg (some ∘ Value.symbol) (Name.display_parse text)
  | .list each => rw [Node.literal?, literals_of_quotes each, Option.map_some, Value.ofForm]
  | .vector each => rw [Node.literal?, literals_of_quotes each, Option.map_some, Value.ofForm]
  | .set each => rw [Node.literal?, literals_of_quotes each, Option.map_some, Value.ofForm]
  | .map each => rw [Node.literal?, literalEntries_of_quotes each, Option.map_some, Value.ofForm]

theorem literals_of_quotes {forms : List Form} {nodes : List Node}
    (quotes : QuotesAll forms nodes) : Node.literals? nodes = some (Value.ofForms forms) := by
  match quotes with
  | .nil => rfl
  | .cons first rest =>
    rw [Node.literals?, literal_of_quotes first, literals_of_quotes rest]
    rfl

theorem literalEntries_of_quotes {entries : List (Form × Form)} {nodes : List (Node × Node)}
    (quotes : QuotesEntries entries nodes) :
    Node.literalEntries? nodes = some (Value.ofEntries entries) := by
  match quotes with
  | .nil => rfl
  | .cons first second rest =>
    rw [Node.literalEntries?, literal_of_quotes first, literal_of_quotes second,
      literalEntries_of_quotes rest]
    rfl

end

namespace Session

open Eval (EvaluatesTo Machine evaluatesTo_literal)

/-- Where `quote` is no macro, every quotation is understood as a node that evaluates, under any
bindings and on any machine, to the value of its form as macros are given it, and leaves the machine
as it was. -/
theorem quotation_evaluates {session : Session} (unknown : session.registry.find? "quote" = none)
    (form : Form) :
    ∃ node after, Ends (Analysis.analyze · form.quote) session (.ok node) after ∧
      ∀ (environment : Environment) (machine : Machine),
        EvaluatesTo environment node machine (.ok (.ofForm form)) machine := by
  obtain ⟨node, after, understood, quotes, -⟩ := Analysis.analyze_quote 0 form unknown
  refine ⟨node, after, ⟨2, understood⟩, fun environment machine => ?_⟩
  exact evaluatesTo_literal environment machine (literal_of_quotes quotes)

/-- The set `#{[a/b] (a/b)}`, of two equal sequences. -/
def equalSequences : Form :=
  .set [.vector [.symbol "a/b"], .list [.symbol "a/b"]]

/-- The list is left out of the set with the vector. -/
theorem quotation_evaluates_equalSequences :
    (new .ruby).registry.find? "quote" = none ∧
    ∃ node after, Ends (Analysis.analyze · equalSequences.quote) (new .ruby) (.ok node) after ∧
      EvaluatesTo [] node (.new .ruby) (.ok (.set [.vector [.symbol "a/b"]])) (.new .ruby) := by
  have value : Value.ofForm equalSequences = .set [.vector [.symbol "a/b"]] := by
    simp [equalSequences, Value.ofForm, Value.ofForms, Value.setOf, Value.adjoin, Value.equal,
      Value.equalElements]
  have unknown : (new .ruby).registry.find? "quote" = none := rfl
  obtain ⟨node, after, understood, evaluates⟩ := quotation_evaluates unknown equalSequences
  exact ⟨unknown, node, after, understood, value ▸ evaluates [] (.new .ruby)⟩

end Session

end ScriptLisp
