import ScriptLisp.Eval.Fault
import ScriptLisp.Form.Display
import ScriptLisp.Reader.Complaint
import ScriptLisp.Target.Basic

/-!
Why a form cannot be compiled: it is no valid code, a macro failed, or the target has no text for
it.
-/

namespace ScriptLisp

/-- What is wrong with the shape of a form. -/
inductive ShapeFault where
  | definitionName
  | definitionShape
  | quotationShape
  | oddCond
  | ifShape
  | clauseShape
  | functionShape
  | missingRest
  | parametersAfterRest
  | parameterName
  | severalVariadic
  | sameArity
  | fixedAboveVariadic
  | oddLoopBindings
  | loopBindingName
  | loopShape
  | throwShape
  | tryClauses
  | tryWithoutClause
  | newShape
  | methodLength
  | methodCall
  | methodMember
  | propertyShape
  | assignmentShape
  | macroShape
  | typeShape
  | protocolShape
  | attributeName
  | memberMethod
  | memberShape
deriving DecidableEq, Repr

def ShapeFault.describe : ShapeFault → String
  | definitionName => "the name of a definition must be a symbol"
  | definitionShape => "expected (def <name> <value>)"
  | quotationShape => "expected (quote <form>)"
  | oddCond => "cond requires an even number of forms"
  | ifShape => "expected (if <test> <consequent> <alternate>?)"
  | clauseShape => "each clause of a function expression must start with a parameter vector"
  | functionShape => "the second element of a function expression must be a vector or a list"
  | missingRest => "expected a name after &"
  | parametersAfterRest => "cannot list parameters after the rest parameter"
  | parameterName => "parameters must be symbols"
  | severalVariadic => "a function can have only one variadic clause"
  | sameArity => "a function can't have two clauses with the same arity"
  | fixedAboveVariadic =>
    "a fixed arity clause can't have more parameters than the variadic clause"
  | oddLoopBindings => "loop bindings must come in pairs"
  | loopBindingName => "loop binding names must be symbols"
  | loopShape => "expected (loop [<bindings>] <body>)"
  | throwShape => "expected (throw <expression>)"
  | tryClauses =>
    "expected (catch <name> <body>) followed by (finally <body>) at the end of try"
  | tryWithoutClause => "try requires a catch or a finally clause"
  | newShape => "expected (new <class> <argument>*)"
  | methodLength => "method resolution should be a list of 3 elements"
  | methodCall => "expected (<name> <argument>*) as method call"
  | methodMember => "the third element of a method resolution must be a symbol or a list"
  | propertyShape => "expected (.- <object> <name>)"
  | assignmentShape => "expected (set! <target> <value>)"
  | macroShape => "expected (defmacro <name> [<param>*] <body>)"
  | typeShape => "expected (deftype <name> [<attribute>*] <member>*)"
  | protocolShape => "expected (defprotocol <name> <member>*)"
  | attributeName => "attribute names must be symbols"
  | memberMethod => "expected (<method> [<param>*] <body>)"
  | memberShape => "expected a protocol name or a method"

inductive AnalysisFault where
  | invalidForm (form : Form) (fault : ShapeFault)
  | unknownOperator (operator : String) (form : Form)
  | arityMismatch (operator : String) (expected got : Nat) (form : Form)

/-- The message for a form that is no code; it shows the form. -/
def AnalysisFault.message : AnalysisFault → String
  | invalidForm form fault => "invalid form " ++ form.display ++ ": " ++ fault.describe
  | unknownOperator operator form => "unknown operator " ++ operator ++ " in " ++ form.display
  | arityMismatch operator expected got form =>
    "wrong number of arguments to " ++ operator ++ ", got: " ++ toString got ++ ", expected: "
      ++ toString expected ++ " in " ++ form.display

/-- Why a macro could not be defined or used. -/
inductive ExpansionFault where
  | invocation (name : String) (fault : Eval.Fault)
  /-- The macro gave a value with a procedure in it. -/
  | notAForm (name : String)
  | loading (name : String) (construct : NodeKind)

/-- The message for a macro that failed; it names the macro. -/
def ExpansionFault.message : ExpansionFault → String
  | invocation name fault => "failed to expand macro " ++ name ++ ": " ++ fault.message
  | notAForm name =>
    "macro " ++ name ++ " returned a value that is not a form: "
      ++ (Eval.Fault.argument .procedureAsForm).message
  | loading name construct =>
    "failed to load macro " ++ name ++ ": " ++ (Eval.Fault.unsupported construct).message

inductive FormFault where
  | analysis (fault : AnalysisFault)
  | expansion (fault : ExpansionFault)
  | generation (fault : Target.Failure)

def FormFault.message : FormFault → String
  | analysis fault => fault.message
  | expansion fault => fault.message
  | generation fault => fault.message

inductive CompileFault where
  | reading (fault : Reader.Failure)
  | form (fault : FormFault)

namespace CompileFault

def message : CompileFault → String
  | reading fault => fault.message
  | form fault => fault.message

/-- Whether more text could complete the program. -/
def isIncomplete : CompileFault → Bool
  | reading .incomplete => true
  | _ => false

end CompileFault

end ScriptLisp
