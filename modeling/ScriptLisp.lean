import ScriptLisp.Analysis.Basic
import ScriptLisp.Analysis.Control
import ScriptLisp.Analysis.Function
import ScriptLisp.Analysis.Interop
import ScriptLisp.Analysis.Literal
import ScriptLisp.Analysis.TypeForm
import ScriptLisp.CommandLine.Compile
import ScriptLisp.CommandLine.Files
import ScriptLisp.CommandLine.Options
import ScriptLisp.Decimal.Binary
import ScriptLisp.Decimal.Shortest
import ScriptLisp.Decimal.Text
import ScriptLisp.Eval.Coverage
import ScriptLisp.Eval.Fault
import ScriptLisp.Eval.Library
import ScriptLisp.Eval.Machine
import ScriptLisp.Eval.Number
import ScriptLisp.Eval.Run
import ScriptLisp.Form.Basic
import ScriptLisp.Form.Display
import ScriptLisp.Integer
import ScriptLisp.Intern
import ScriptLisp.Main
import ScriptLisp.Node.Basic
import ScriptLisp.Node.Control
import ScriptLisp.Node.Kind
import ScriptLisp.Operator
import ScriptLisp.Proofs.Eval.Coverage
import ScriptLisp.Proofs.Eval.Comparison
import ScriptLisp.Proofs.Eval.Discipline
import ScriptLisp.Proofs.Eval.Keeping
import ScriptLisp.Proofs.Eval.Library
import ScriptLisp.Proofs.Eval.Run
import ScriptLisp.Proofs.Form.Within
import ScriptLisp.Proofs.Node.Variables
import ScriptLisp.Proofs.Reader.Composition
import ScriptLisp.Proofs.Reader.Grammar
import ScriptLisp.Proofs.Reader.RoundTrip
import ScriptLisp.Proofs.Reader.Token
import ScriptLisp.Proofs.Session.Coverage
import ScriptLisp.Proofs.Session.Effect
import ScriptLisp.Proofs.Session.InTurn
import ScriptLisp.Proofs.Stateful
import ScriptLisp.Proofs.Target.Balanced
import ScriptLisp.Proofs.Target.JavaScriptText
import ScriptLisp.Proofs.Target.Operand
import ScriptLisp.Proofs.Target.RubyText
import ScriptLisp.Proofs.Text.Delimiters
import ScriptLisp.Proofs.Text.Numerals
import ScriptLisp.Proofs.Value.Within
import ScriptLisp.Reader.Atom
import ScriptLisp.Reader.Basic
import ScriptLisp.Reader.Complaint
import ScriptLisp.Repl.Command
import ScriptLisp.Repl.Completion
import ScriptLisp.Repl.Transcript
import ScriptLisp.Session.Basic
import ScriptLisp.Session.Compile
import ScriptLisp.Session.Fault
import ScriptLisp.Target.Basic
import ScriptLisp.Target.Generate
import ScriptLisp.Target.JavaScript
import ScriptLisp.Target.Operand
import ScriptLisp.Target.Ruby
import ScriptLisp.Target.Spelling
import ScriptLisp.Text.Alphabetic
import ScriptLisp.Text.Basic
import ScriptLisp.Text.Printable
import ScriptLisp.Text.Upper
import ScriptLisp.Value.Basic
import ScriptLisp.Value.Display
import ScriptLisp.Value.Equality
import ScriptLisp.Value.OfForm
import ScriptLisp.Proofs.Reader.Completion
import ScriptLisp.Proofs.Analysis.Decision
import ScriptLisp.Proofs.Analysis.Function
import ScriptLisp.Proofs.Analysis.SpecialForm
import ScriptLisp.Proofs.Analysis.Acceptance
import ScriptLisp.Proofs.Session.Leftover
import ScriptLisp.Proofs.Node.Children
import ScriptLisp.Proofs.Node.Made
import ScriptLisp.Proofs.Eval.Recursion
import ScriptLisp.Proofs.Target.Capability
import ScriptLisp.Proofs.Analysis.Making
import ScriptLisp.Proofs.Session.Literals
import ScriptLisp.Proofs.Analysis.Quotation
import ScriptLisp.Proofs.Target.DataStyle
import ScriptLisp.Proofs.Target.JavaScriptData
import ScriptLisp.Proofs.Session.Quotation
import ScriptLisp.Proofs.Value.Equality
import ScriptLisp.Proofs.Eval.Distinct
import ScriptLisp.Proofs.Reader.Symbols
import ScriptLisp.Proofs.Target.Identifier
import ScriptLisp.Proofs.Eval.Generation
import ScriptLisp.Proofs.Target.Literal
import ScriptLisp.Proofs.Target.Sign
import ScriptLisp.Proofs.Target.Receiver
import ScriptLisp.Proofs.Target.RubyOperand
import ScriptLisp.Proofs.Value.Laws
import ScriptLisp.Proofs.Value.Conversion
import ScriptLisp.Proofs.Analysis.Arity
import ScriptLisp.Proofs.Target.Dispatch
import ScriptLisp.Proofs.Eval.Fuel
import ScriptLisp.Proofs.Analysis.Fuel
import ScriptLisp.Proofs.Session.Expansion
import ScriptLisp.Proofs.Integer
import ScriptLisp.Proofs.Eval.Arithmetic
import ScriptLisp.Proofs.Eval.Literal
import ScriptLisp.Proofs.Eval.Quotation
import ScriptLisp.Proofs.Value.Renumbering
import ScriptLisp.Proofs.Eval.Renumbering
import ScriptLisp.Proofs.Eval.Identity
import ScriptLisp.Proofs.Eval.Known
import ScriptLisp.Proofs.Eval.Loop
import ScriptLisp.Proofs.Analysis.TailCall
import ScriptLisp.Proofs.Reader.Number
import ScriptLisp.Proofs.Repl.Completion
import ScriptLisp.Proofs.Analysis.Composition
import ScriptLisp.Proofs.Eval.Conditional
import ScriptLisp.Proofs.Session.Replay
import ScriptLisp.Proofs.Session.Conditional
import ScriptLisp.Proofs.Target.Canonical
import ScriptLisp.Proofs.Reader.Guarded
import ScriptLisp.Proofs.Reader.Progress
import ScriptLisp.Proofs.Eval.Checked
import ScriptLisp.Proofs.Eval.Access
