import ScriptLisp.Proofs.Target.JavaScriptText
import ScriptLisp.Proofs.Target.RubyText
import ScriptLisp.Target.Generate

/-!
Generated text never breaks the text around it. Whatever strings, names and numbers a program
holds, every bracket and every literal of its text is closed by its own partner, in every target
that has a text for it; and in JavaScript a text for a value can stand wherever a value can.

* `generate_balanced`: balance in both targets, and one line, a text and no loose semicolon in
  JavaScript.
-/

namespace ScriptLisp.Target

open Delimiters

/-- The text of a clean node in any place is balanced and stands on one line. -/
theorem emit_balanced (context : JavaScript.Context) {node : Node} (clean : node.IsClean) :
    ∃ text, JavaScript.emit context node = .ok text ∧ Balanced text ∧ OnOneLine text := by
  have closed := JavaScript.textOf_closed context node clean
  refine ⟨_, JavaScript.emit_eq context node, closed.balanced, onOneLine_of_scan ?_ closed⟩
  cases context <;> rfl

/-- The text of a node whose names hold no quotes, brackets, semicolons or line breaks is balanced
in every target. In JavaScript there always is one, and it stands on one line; where a value is
needed it is not empty, and its semicolons stand inside brackets or literals. -/
theorem generate_balanced (node : Node) (clean : node.IsClean) :
    (∃ text, javascript.generate node = .ok text ∧ Balanced text ∧ OnOneLine text) ∧
    (∀ text, ruby.generate node = .ok text → Balanced text) ∧
    (∀ context, ∃ text, JavaScript.emit context node = .ok text ∧ Balanced text ∧
      OnOneLine text) ∧
    ∃ text, JavaScript.emit .expression node = .ok text ∧ text ≠ "" ∧ NoOuterSemicolon text :=
  ⟨emit_balanced .topLevel clean, fun _ emitted => (Ruby.emit_closed node clean emitted).balanced,
    fun context => emit_balanced context clean, _, JavaScript.emit_eq .expression node,
    JavaScript.textOf_ne_empty node clean,
    noOuterSemicolon_of_scan (JavaScript.textOf_closed .expression node clean)⟩

/-- A definition in a namespace, of a function with a string that looks like the end of a call. -/
def hostileDefinition : Node :=
  .definition ⟨some "a.b", "f"⟩ (.lambda (.single (.mk ⟨[⟨none, "x"⟩], some ⟨none, "more"⟩⟩
    [.string ⟨0, "'); \\"⟩, .recursionPoint [.reference ⟨none, "x"⟩]])))

theorem generate_balanced_hostile : hostileDefinition.IsClean ∧
    (∃ text, JavaScript.emit .result hostileDefinition = .ok text ∧ Balanced text) ∧
    ∃ text, JavaScript.emit .expression hostileDefinition = .ok text ∧ NoOuterSemicolon text := by
  have clean : hostileDefinition.IsClean := by decide
  obtain ⟨_, _, balanced, value, written, _, semicolons⟩ :=
    generate_balanced hostileDefinition clean
  obtain ⟨result, returned, closed, _⟩ := balanced .result
  exact ⟨clean, ⟨result, returned, closed⟩, value, written, semicolons⟩

end ScriptLisp.Target
