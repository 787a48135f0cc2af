import ScriptLisp.Proofs.Target.Operand
import ScriptLisp.Target.JavaScript

/-!
JavaScript has a text for every construct, so no check of the emitter fails, whatever the node, and
what the emitter writes is put together from the texts of the parts alone.

* `textOf`: the text of a node in a place, without checks.
* `emit_eq`, `emitLambda_eq`: the emitter succeeds for every node and every function, with that
  text.
-/

namespace ScriptLisp

namespace JavaScript

open Target

/-! ### Texts without checks -/

/-- The text of a call, which is inlined if it is a primitive one. -/
def applicationText (invocable : Node) (callee : String) (args : List String) : String :=
  (inlined? invocable args).getD (callText callee args)

mutual

/-- The text of a node in a place. -/
def textOf (context : Context) : Node → String
  | .exception expression => context.throwing (textOf .expression expression)
  | .recursionPoint args =>
    context.throwing ("new " ++ recursionPoint ++ "([" ++ commas (textsOf args) ++ "])")
  | .definition name value => context.binding name (textOf .expression value)
  | .protocolDefinition name protocols methods =>
    context.binding name (protocolText protocols (methodTexts [] methods))
  | .macroDefinition _ _ => context.nothing
  | .nil _ => context.wrap "null"
  | .boolean b => context.wrap (if b.value then "true" else "false")
  | .integer i => context.wrap (integerText i.value)
  | .rational n d => context.wrap ("(" ++ integerText n ++ "/" ++ Integer.text d ++ ")")
  | .decimal d => context.wrap (decimalText d)
  | .string s => context.wrap (quoted s.value)
  | .keyword k => context.wrap ("mori.keyword(" ++ nameText k.value ++ ")")
  | .symbol s => context.wrap ("mori.symbol(" ++ nameText s.value ++ ")")
  | .vector es => context.wrap ("mori.vector(" ++ commas (textsOf es) ++ ")")
  | .list es => context.wrap ("mori.list(" ++ commas (textsOf es) ++ ")")
  | .set es => context.wrap ("mori.set([" ++ commas (textsOf es) ++ "])")
  | .map es => context.wrap ("mori.hashMap(" ++ commas (entryTexts es) ++ ")")
  | .reference v => context.wrap (variableText v)
  | .conditional branches otherwise =>
    context.wrap (conditionalText (branchTexts branches) (textOf .result otherwise))
  | .lambda function => context.wrap (lambdaText function)
  | .block body => context.wrap (immediate (" ".intercalate (bodyTexts body)))
  | .loop bindings body =>
    context.wrap (loopText (bindingTexts bindings) (" ".intercalate (bodyTexts body)))
  | .exceptionHandler body handler cleanup =>
    context.wrap (tryText (" ".intercalate (bodyTexts body)) (handlerText handler)
      (cleanupText cleanup))
  | .classInstantiation constructor args =>
    context.wrap
      ("(new " ++ textOf .expression constructor ++ "(" ++ commas (textsOf args) ++ "))")
  | .methodResolution object method args =>
    context.wrap
      (textOf .expression object ++ "." ++ method.base ++ "(" ++ commas (textsOf args) ++ ")")
  | .propertyResolution object property =>
    context.wrap (textOf .expression object ++ "." ++ property.base)
  | .assignment target value =>
    context.wrap ("(" ++ textOf .expression target ++ "=" ++ textOf .expression value ++ ")")
  | .application invocable args _ =>
    context.wrap (applicationText invocable (textOf .expression invocable) (textsOf args))
  | .binary operator left right =>
    context.wrap
      ("(" ++ textOf .expression left ++ binaryToken operator ++ textOf .expression right ++ ")")
  | .unary operator operand =>
    context.wrap ("(" ++ unaryToken operator ++ textOf .expression operand ++ ")")
  | .arithmetic operator args =>
    context.wrap (arithmeticText operator (arithmeticToken operator) (textsOf args))
  | .typeDefinition name attributes protocols methods =>
    context.wrap (typeText name attributes protocols (methodTexts attributes methods))

def textsOf : List Node → List String
  | [] => []
  | node :: rest => textOf .expression node :: textsOf rest

def entryTexts : List (Node × Node) → List String
  | [] => []
  | (key, value) :: rest =>
    textOf .expression key :: textOf .expression value :: entryTexts rest

def branchTexts : List (Node × Node) → List (String × String)
  | [] => []
  | (test, consequent) :: rest =>
    (textOf .expression test, textOf .result consequent) :: branchTexts rest

def bindingTexts : List (Variable × Node) → List (String × String)
  | [] => []
  | (name, init) :: rest => (name.base, textOf .expression init) :: bindingTexts rest

/-- Statements for everything but the last node, whose value is returned. -/
def bodyTexts : List Node → List String
  | [] => ["return null;"]
  | [last] => [textOf .result last]
  | node :: rest =>
    let statement := textOf .statement node
    if statement.isEmpty then bodyTexts rest else statement :: bodyTexts rest

def statementTexts : List Node → List String
  | [] => []
  | node :: rest => textOf .statement node :: statementTexts rest

/-- The part of a handler that binds what was thrown. -/
def handlerText : Option (Variable × List Node) → String
  | some (binding, body) => catchText binding.base (" ".intercalate (bodyTexts body))
  | none => ""

/-- The part of a handler that runs whatever the ending. -/
def cleanupText : Option (List Node) → String
  | some body => finallyText (" ".intercalate (statementTexts body))
  | none => ""

def lambdaText : Lambda → String
  | .single (.mk params body) =>
    standaloneText params (Node.anyRecurs body) (" ".intercalate (bodyTexts body))
  | .multi clauses =>
    dispatchText (fixedFirst (·.1.isVariadic) (clauseTexts clauses))
      (clauses.any fun c => Node.anyRecurs c.body)

/-- The parameters of clauses with the texts of their bodies. -/
def clauseTexts : List Clause → List (Params × String)
  | [] => []
  | .mk params body :: rest => (params, " ".intercalate (bodyTexts body)) :: clauseTexts rest

def methodTexts (attributes : List Variable) : List Method → List (Variable × String)
  | [] => []
  | .mk name params body :: rest =>
    (name, methodText attributes params (" ".intercalate (bodyTexts body)))
      :: methodTexts attributes rest

end

/-! ### No check fails -/

-- The recursion is that of the emitter: every check is of a kind that the target supports.
mutual

/-- Every node has a text in every place. -/
theorem emit_eq (context : Context) (node : Node) :
    emit context node = .ok (textOf context node) := by
  rw [emit.eq_def, ensureSupported_of_supports rfl]
  match node with
  | .nil _ | .boolean _ | .integer _ | .rational _ _ | .decimal _ | .string _ | .keyword _
  | .symbol _ | .reference _ | .macroDefinition _ _ => rfl
  | .exception inner | .definition _ inner | .propertyResolution inner _ | .unary _ inner =>
    simp only [emit_eq _ inner]
    rfl
  | .assignment left right | .binary _ left right =>
    simp only [emit_eq _ left, emit_eq _ right]
    rfl
  | .recursionPoint nodes | .vector nodes | .list nodes | .set nodes | .arithmetic _ nodes =>
    simp only [emitAll_eq nodes]
    rfl
  | .classInstantiation object args | .methodResolution object _ args =>
    simp only [emit_eq _ object, emitAll_eq args]
    rfl
  | .map entries =>
    simp only [emitEntries_eq entries]
    rfl
  | .conditional branches otherwise =>
    simp only [emit_eq _ otherwise, emitBranches_eq branches]
    rfl
  | .lambda function =>
    simp only [emitLambda_eq function]
    rfl
  | .block body =>
    simp only [emitBody_eq body]
    rfl
  | .loop bindings body =>
    simp only [emitBindings_eq bindings, emitBody_eq body]
    rfl
  | .exceptionHandler body handler cleanup =>
    simp only [emitBody_eq body, emitHandler_eq handler, emitCleanup_eq cleanup]
    rfl
  | .application invocable args _ =>
    simp only [emit_eq _ invocable, emitAll_eq args, textOf, applicationText]
    change (match inlined? invocable (textsOf args) with
      | some text => pure (context.wrap text)
      | none => pure (context.wrap (callText _ (textsOf args)))) = _
    cases inlined? invocable (textsOf args) <;> rfl
  | .typeDefinition _ attributes _ methods =>
    simp only [emitMethods_eq attributes methods]
    rfl
  | .protocolDefinition _ _ methods =>
    simp only [emitMethods_eq [] methods]
    rfl

theorem emitAll_eq (nodes : List Node) : emitAll nodes = .ok (textsOf nodes) := by
  match nodes with
  | [] => rfl
  | node :: rest =>
    rw [emitAll, emit_eq _ node, emitAll_eq rest]
    rfl

theorem emitEntries_eq (entries : List (Node × Node)) :
    emitEntries entries = .ok (entryTexts entries) := by
  match entries with
  | [] => rfl
  | (key, value) :: rest =>
    rw [emitEntries, emit_eq _ key, emit_eq _ value, emitEntries_eq rest]
    rfl

theorem emitBranches_eq (branches : List (Node × Node)) :
    emitBranches branches = .ok (branchTexts branches) := by
  match branches with
  | [] => rfl
  | (test, consequent) :: rest =>
    rw [emitBranches, emit_eq _ test, emit_eq _ consequent, emitBranches_eq rest]
    rfl

theorem emitBindings_eq (bindings : List (Variable × Node)) :
    emitBindings bindings = .ok (bindingTexts bindings) := by
  match bindings with
  | [] => rfl
  | (name, init) :: rest =>
    rw [emitBindings, emit_eq _ init, emitBindings_eq rest]
    rfl

theorem emitBody_eq (body : List Node) : emitBody body = .ok (bodyTexts body) := by
  rcases body with _ | ⟨node, _ | ⟨second, rest⟩⟩
  · rfl
  · rw [emitBody, emit_eq _ node]
    rfl
  · have several : second :: rest = [] → False := List.cons_ne_nil second rest
    rw [emitBody.eq_3 _ _ several, emit_eq _ node, emitBody_eq (second :: rest)]
    rfl

theorem emitStatements_eq (nodes : List Node) :
    emitStatements nodes = .ok (statementTexts nodes) := by
  match nodes with
  | [] => rfl
  | node :: rest =>
    rw [emitStatements, emit_eq _ node, emitStatements_eq rest]
    rfl

theorem emitHandler_eq (handler : Option (Variable × List Node)) :
    emitHandler handler = .ok (handlerText handler) := by
  match handler with
  | none => rfl
  | some (_, body) =>
    rw [emitHandler, emitBody_eq body]
    rfl

theorem emitCleanup_eq (cleanup : Option (List Node)) :
    emitCleanup cleanup = .ok (cleanupText cleanup) := by
  match cleanup with
  | none => rfl
  | some body =>
    rw [emitCleanup, emitStatements_eq body]
    rfl

/-- Every function has a text. -/
theorem emitLambda_eq (function : Lambda) : emitLambda function = .ok (lambdaText function) := by
  match function with
  | .single (.mk params body) =>
    rw [emitLambda, emitBody_eq body]
    rfl
  | .multi clauses =>
    rw [emitLambda, emitClauses_eq clauses, inTrialOrder_ok]
    rfl

theorem emitClauses_eq (clauses : List Clause) :
    emitClauses clauses = (clauseTexts clauses).map fun clause => (clause.1, .ok clause.2) := by
  match clauses with
  | [] => rfl
  | .mk params body :: rest =>
    rw [emitClauses, emitBody_eq body, emitClauses_eq rest]
    rfl

/-- A method is a construct of its own, and is checked as one. -/
theorem emitMethods_eq (attributes : List Variable) (methods : List Method) :
    emitMethods attributes methods = .ok (methodTexts attributes methods) := by
  match methods with
  | [] => rfl
  | .mk name params body :: rest =>
    rw [emitMethods, ensureSupported_of_supports rfl, emitBody_eq body,
      emitMethods_eq attributes rest]
    rfl

end

/-- Nodes as expressions have their texts one by one. -/
theorem textsOf_eq_map (nodes : List Node) : textsOf nodes = nodes.map (textOf .expression) := by
  induction nodes with
  | nil => rfl
  | cons node nodes ih => rw [textsOf, ih, List.map_cons]

end JavaScript

end ScriptLisp
