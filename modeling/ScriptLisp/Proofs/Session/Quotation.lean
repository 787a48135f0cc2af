import ScriptLisp.Proofs.Target.JavaScriptData
import ScriptLisp.Proofs.Target.RubyData
import ScriptLisp.Session.Compile

/-!
Compiled quotations. Every quotation has a text, the one that its target's style of data gives the
form; and these texts lose nothing, so what was quoted can be told from the text alone, in whatever
sessions it was compiled.

* `Target.dataStyle`, `Target.generate_data`: the style of each target, in which data is written.
* `compileForm_quote`: the text of a quotation.
* `quotation_lossless`: different forms have different texts.
-/

namespace ScriptLisp

namespace Target

/-- How a target writes data. -/
def dataStyle : Target → DataStyle
  | javascript => JavaScript.dataStyle
  | ruby => Ruby.dataStyle

theorem dataStyle_lawful (target : Target) : target.dataStyle.Lawful :=
  match target with
  | javascript => JavaScript.dataStyle_lawful
  | ruby => Ruby.dataStyle_lawful

/-- Every target has a text for data. -/
theorem generate_data (target : Target) {form : Form} {node : Node} (quotes : Quotes form node) :
    target.generate node = .ok (target.dataStyle.text form) := by
  cases target with
  | javascript =>
    rw [generate, JavaScript.emit_eq, JavaScript.textOf_data quotes, JavaScript.Context.wrap,
      dataStyle]
  | ruby => rw [generate, Ruby.emit_data quotes, dataStyle]

end Target

namespace Session

/-- A quotation compiles to the text of its form as data, where `quote` is no macro. -/
theorem compileForm_quote (fuel : Nat) (form : Form) {session : Session}
    (unknown : session.registry.find? "quote" = none) :
    (compileForm (fuel + 2) form.quote session).1 =
      .ok (session.target.dataStyle.text form) := by
  obtain ⟨node, after, analyzed, quotes, target⟩ := Analysis.analyze_quote fuel form unknown
  rw [compileForm, Stateful.bind_run, analyzed]
  simp only
  rw [Stateful.get_bind_run, target, session.target.generate_data quotes]
  rfl

/-- Compiling quoted data loses nothing. In any two sessions for one target where `quote` is no
macro, the quotations of forms without decimals have texts, and the texts are the same only if the
forms are. -/
theorem quotation_lossless (target : Target) (fuel steps : Nat) (session other : Session)
    (compiles : session.target = target) (compilesToo : other.target = target)
    (unknown : session.registry.find? "quote" = none)
    (unknownToo : other.registry.find? "quote" = none)
    {f g : Form} (free : f.DecimalFree) (freeToo : g.DecimalFree) :
    ∃ text written, (compileForm (fuel + 2) f.quote session).1 = .ok text ∧
      (compileForm (steps + 2) g.quote other).1 = .ok written ∧
      (text = written ↔ f = g) := by
  refine ⟨_, _, compileForm_quote fuel f unknown, compileForm_quote steps g unknownToo, ?_⟩
  rw [compiles, compilesToo]
  exact target.dataStyle_lawful.text_inj free freeToo

/-- A vector of one keyword. -/
def keywordIn (name : String) : Form :=
  .vector [.keyword name]

-- Without a qualifier the keyword is written plainly, with one as a quoted literal.
theorem quotation_lossless_keywords :
    ∃ text written, (compileForm 2 (keywordIn "a").quote (new .ruby)).1 = .ok text ∧
      (compileForm 2 (keywordIn "a/b").quote (new .ruby)).1 = .ok written ∧ text ≠ written := by
  have free : ∀ name, (keywordIn name).DecimalFree := by
    rintro name d (_ | ⟨member, inner⟩)
    obtain rfl := List.mem_singleton.mp member
    cases inner with
    | part none _ => cases none
  obtain ⟨text, written, first, second, same⟩ :=
    quotation_lossless .ruby 0 0 (new .ruby) (new .ruby) rfl rfl rfl rfl (free "a") (free "a/b")
  exact ⟨text, written, first, second, mt same.mp (by simp [keywordIn])⟩

end Session

end ScriptLisp
