import ScriptLisp.Node.Kind

/-!
Which constructs have no meaning at compile time. A macro is checked for them when it is defined,
so that its use never meets one.
-/

namespace ScriptLisp.Eval

mutual

/-- The first construct in a node that cannot be evaluated. -/
def uncovered? : Node → Option NodeKind
  | .classInstantiation _ _ => some .classInstantiation
  | .methodResolution _ _ _ => some .methodResolution
  | .propertyResolution _ _ => some .propertyResolution
  | .assignment _ _ => some .assignment
  | .macroDefinition _ _ => some .macroDefinition
  | .typeDefinition _ _ _ _ => some .typeDefinition
  | .protocolDefinition _ _ _ => some .protocolDefinition
  | .binary .instanceOf _ _ => some .binary
  | .binary _ left right => (uncovered? left).or (uncovered? right)
  | .unary _ operand => uncovered? operand
  | .arithmetic _ args => uncoveredInAll? args
  | .vector elements | .set elements | .list elements => uncoveredInAll? elements
  | .map entries => uncoveredInEntries? entries
  | .definition _ value => uncovered? value
  | .conditional branches otherwise =>
    (uncoveredInEntries? branches).or (uncovered? otherwise)
  | .lambda function => uncoveredInLambda? function
  | .block body => uncoveredInAll? body
  | .loop bindings body => (uncoveredInBindings? bindings).or (uncoveredInAll? body)
  | .recursionPoint args => uncoveredInAll? args
  | .exceptionHandler body handler cleanup =>
    ((uncoveredInAll? body).or
      (match handler with
        | some (_, body) => uncoveredInAll? body
        | none => none)).or
      (match cleanup with
        | some body => uncoveredInAll? body
        | none => none)
  | .exception expression => uncovered? expression
  | .application invocable args _ => (uncovered? invocable).or (uncoveredInAll? args)
  | _ => none

/-- The first construct in some nodes that cannot be evaluated. -/
def uncoveredInAll? : List Node → Option NodeKind
  | [] => none
  | node :: rest => (uncovered? node).or (uncoveredInAll? rest)

/-- The first construct in some pairs of nodes that cannot be evaluated. -/
def uncoveredInEntries? : List (Node × Node) → Option NodeKind
  | [] => none
  | (first, second) :: rest =>
    ((uncovered? first).or (uncovered? second)).or (uncoveredInEntries? rest)

/-- The first construct in some initial values that cannot be evaluated. -/
def uncoveredInBindings? : List (Variable × Node) → Option NodeKind
  | [] => none
  | (_, init) :: rest => (uncovered? init).or (uncoveredInBindings? rest)

/-- The first construct in a function that cannot be evaluated. -/
def uncoveredInLambda? : Lambda → Option NodeKind
  | .single (.mk _ body) => uncoveredInAll? body
  | .multi clauses => uncoveredInClauses? clauses

/-- The first construct in some clauses that cannot be evaluated. -/
def uncoveredInClauses? : List Clause → Option NodeKind
  | [] => none
  | .mk _ body :: rest => (uncoveredInAll? body).or (uncoveredInClauses? rest)

end

end ScriptLisp.Eval
