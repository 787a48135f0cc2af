import ScriptLisp.Analysis.Basic
import ScriptLisp.Proofs.Form.Within

/-!
The grammar of code. Every form that is no list is code if its elements are. A list is a special
form or an operation, which its head selects, or else a call.

* `Code`, `Operands`: the forms that are code, and what may follow the head of a special form.
* `Parameters`, `ArityRules`: parameters of functions, and how several clauses go together.
* `Form.codeParts`: the parts of a form that stand where code is expected, whether or not the form
  is code.
* `code_special_iff`, `code_operation_iff`, `code_call_iff`: the one rule for a list, by its head.
* `Form.sizeOf_lt_of_mem_codeParts`: code inside a form is smaller than the form.
-/

namespace ScriptLisp

namespace Grammar

/-! ### Names -/

/-- The names of the special forms. -/
def specialNames : List (String × SpecialForm) :=
  [("def", .definition), ("quote", .quotation), ("cond", .cond), ("if", .conditional),
    ("fn", .function), ("do", .block), ("loop", .loop), ("recur", .recur), ("throw", .throwing),
    ("try", .trying), ("new", .instantiation), (".", .method), (".-", .property),
    ("set!", .assignment), ("defmacro", .macroDefinition), ("deftype", .typeDefinition),
    ("defprotocol", .protocolDefinition)]

/-- The names of the operators with the number of operands they take, or `none` where any number
will do. -/
def operatorNames : List (String × Option Nat) :=
  [("<", some 2), ("<=", some 2), (">", some 2), (">=", some 2), ("mod", some 2),
    ("bit-and", some 2), ("bit-or", some 2), ("bit-xor", some 2), ("bit-shift-left", some 2),
    ("bit-shift-right", some 2), ("unsigned-bit-shift-right", some 2), ("identical?", some 2),
    ("=", some 2), ("not=", some 2), ("and", some 2), ("or", some 2), ("instance?", some 2),
    ("not", some 1), ("bit-not", some 1),
    ("+", none), ("-", none), ("*", none), ("/", none)]

/-- A name that selects neither a special form nor an operator. -/
def Free (name : String) : Prop :=
  name ∉ specialNames.map (·.1) ∧ name ∉ operatorNames.map (·.1)

/-! ### Functions -/

/-- Parameters `name* (& name)?`. -/
inductive Parameters : List Form → Prop
  | none : Parameters []
  | rest {name : String} (ordinary : name ≠ "&") : Parameters [.symbol "&", .symbol name]
  | fixed {name : String} {others : List Form} (ordinary : name ≠ "&")
      (follow : Parameters others) : Parameters (.symbol name :: others)

/-- Whether a parameter announces the one for all further arguments. -/
def isRestMark : Form → Bool
  | .symbol name => name == "&"
  | _ => false

/-- The number of arguments that a clause requires, and whether it accepts more. -/
structure ClauseArity where
  required : Nat
  variadic : Bool

/-- The arity of a clause with some parameters. -/
def ClauseArity.ofParameters (parameters : List Form) : ClauseArity where
  required := (parameters.takeWhile fun p => !isRestMark p).length
  variadic := parameters.any isRestMark

/-- The arity of a clause `([parameter*] body*)`. -/
def ClauseArity.ofClause : Form → ClauseArity
  | .list (.vector parameters :: _) => .ofParameters parameters
  | _ => ⟨0, false⟩

/-- At most one clause is variadic, no two others take the same number of arguments, and none of
them takes more than the variadic one requires. -/
structure ArityRules (clauses : List ClauseArity) : Prop where
  oneVariadic : (clauses.filter (·.variadic)).length ≤ 1
  distinct : ((clauses.filter fun c => !c.variadic).map (·.required)).Nodup
  within : ∀ v ∈ clauses, v.variadic = true → ∀ c ∈ clauses, c.variadic = false →
    c.required ≤ v.required

/-! ### Code -/

mutual

/-- The form is code. -/
inductive Code : Form → Prop
  | nil : Code .nil
  | boolean (value : Bool) : Code (.boolean value)
  | integer (value : Int64) : Code (.integer value)
  | rational (numerator denominator : Int64) : Code (.rational numerator denominator)
  | decimal (value : Float) : Code (.decimal value)
  | string (text : String) : Code (.string text)
  | symbol (name : String) : Code (.symbol name)
  | keyword (name : String) : Code (.keyword name)
  | vector {elements : List Form} (each : ∀ f ∈ elements, Code f) : Code (.vector elements)
  | set {elements : List Form} (each : ∀ f ∈ elements, Code f) : Code (.set elements)
  | map {entries : List (Form × Form)} (keys : ∀ e ∈ entries, Code e.1)
      (values : ∀ e ∈ entries, Code e.2) : Code (.map entries)
  | emptyList : Code (.list [])
  | special {name : String} {head : SpecialForm} {operands : List Form}
      (named : (name, head) ∈ specialNames) (shaped : Operands head operands) :
      Code (.list (.symbol name :: operands))
  | operation {name : String} {count : Option Nat} {operands : List Form}
      (named : (name, count) ∈ operatorNames) (counted : ∀ n ∈ count, operands.length = n)
      (each : ∀ f ∈ operands, Code f) : Code (.list (.symbol name :: operands))
  | call {head : Form} {operands : List Form} (free : ∀ name, head = .symbol name → Free name)
      (invoked : Code head) (each : ∀ f ∈ operands, Code f) : Code (.list (head :: operands))

/-- What may follow the head of a special form. -/
inductive Operands : SpecialForm → List Form → Prop
  /-- `(def name)` -/
  | declaration (name : String) : Operands .definition [.symbol name]
  /-- `(def name value)` -/
  | definition (name : String) {value : Form} (bound : Code value) :
      Operands .definition [.symbol name, value]
  /-- `(quote data)` -/
  | quotation (data : Form) : Operands .quotation [data]
  /-- `(cond test consequent ...)`, where a test may be `:else` -/
  | cond {operands : List Form} (even : operands.length % 2 = 0)
      (each : ∀ f ∈ operands, Code f) : Operands .cond operands
  /-- `(if test consequent)` -/
  | when {test consequent : Form} (tested : Code test) (chosen : Code consequent) :
      Operands .conditional [test, consequent]
  /-- `(if test consequent alternate)` -/
  | choice {test consequent alternate : Form} (tested : Code test) (chosen : Code consequent)
      (otherwise : Code alternate) : Operands .conditional [test, consequent, alternate]
  /-- `(fn [parameter*] body*)` -/
  | function {parameters body : List Form} (takes : Parameters parameters)
      (each : ∀ f ∈ body, Code f) : Operands .function (.vector parameters :: body)
  /-- `(fn ([parameter*] body*) ...)` -/
  | clauses {clauses : List Form} (nonempty : clauses ≠ []) (each : ∀ c ∈ clauses, Clause c)
      (rules : ArityRules (clauses.map .ofClause)) : Operands .function clauses
  /-- `(do body*)` -/
  | block {operands : List Form} (each : ∀ f ∈ operands, Code f) : Operands .block operands
  /-- `(loop [name init ...] body*)` -/
  | loop {names body : List Form} (bound : Bindings names) (each : ∀ f ∈ body, Code f) :
      Operands .loop (.vector names :: body)
  /-- `(recur argument*)` -/
  | recur {operands : List Form} (each : ∀ f ∈ operands, Code f) : Operands .recur operands
  /-- `(throw expression)` -/
  | throwing {expression : Form} (thrown : Code expression) : Operands .throwing [expression]
  /-- `(try body* (catch name body*)? (finally body*)?)` -/
  | trying {body handlers : List Form}
      (plain : ∀ f ∈ body, f.head? ≠ some "catch" ∧ f.head? ≠ some "finally")
      (each : ∀ f ∈ body, Code f) (handled : Handlers handlers) :
      Operands .trying (body ++ handlers)
  /-- `(new class argument*)` -/
  | instantiation {constructor : Form} {args : List Form} (made : Code constructor)
      (each : ∀ f ∈ args, Code f) : Operands .instantiation (constructor :: args)
  /-- `(. object name)` -/
  | method {object : Form} (name : String) (receives : Code object) :
      Operands .method [object, .symbol name]
  /-- `(. object (name argument*))` -/
  | methodCall {object : Form} (name : String) {args : List Form} (receives : Code object)
      (each : ∀ f ∈ args, Code f) : Operands .method [object, .list (.symbol name :: args)]
  /-- `(.- object name)` -/
  | property {object : Form} (name : String) (receives : Code object) :
      Operands .property [object, .symbol name]
  /-- `(set! target value)`, where the target is a symbol or a list -/
  | assignment {target value : Form}
      (place : (∃ name, target = .symbol name) ∨ ∃ elements, target = .list elements)
      (assigned : Code target) (given : Code value) : Operands .assignment [target, value]
  /-- `(deftype name [attribute*] member*)` -/
  | typeDefinition (name : String) {attributes members : List Form}
      (named : ∀ a ∈ attributes, ∃ spelled, a = .symbol spelled)
      (each : ∀ m ∈ members, Member m) :
      Operands .typeDefinition (.symbol name :: .vector attributes :: members)
  /-- `(defprotocol name member*)` -/
  | protocolDefinition (name : String) {members : List Form} (each : ∀ m ∈ members, Member m) :
      Operands .protocolDefinition (.symbol name :: members)

/-- A clause of a function, `([parameter*] body*)`. -/
inductive Clause : Form → Prop
  | mk {parameters body : List Form} (takes : Parameters parameters) (each : ∀ f ∈ body, Code f) :
      Clause (.list (.vector parameters :: body))

/-- Names of a loop with their initial values in turn. -/
inductive Bindings : List Form → Prop
  | none : Bindings []
  | cons (name : String) {init : Form} {rest : List Form} (bound : Code init)
      (others : Bindings rest) : Bindings (.symbol name :: init :: rest)

/-- The clauses of a handler: `(catch name body*)`, `(finally body*)`, or both in this order. -/
inductive Handlers : List Form → Prop
  | handler (name : String) {body : List Form} (each : ∀ f ∈ body, Code f) :
      Handlers [.list (.symbol "catch" :: .symbol name :: body)]
  | cleanup {body : List Form} (each : ∀ f ∈ body, Code f) :
      Handlers [.list (.symbol "finally" :: body)]
  | both (name : String) {body cleanup : List Form} (each : ∀ f ∈ body, Code f)
      (eachLast : ∀ f ∈ cleanup, Code f) :
      Handlers [.list (.symbol "catch" :: .symbol name :: body),
        .list (.symbol "finally" :: cleanup)]

/-- A member of a type or protocol: the name of a protocol, or `(name [parameter*] body*)`. -/
inductive Member : Form → Prop
  | protocol (name : String) : Member (.symbol name)
  | method (name : String) {parameters body : List Form} (takes : Parameters parameters)
      (each : ∀ f ∈ body, Code f) : Member (.list (.symbol name :: .vector parameters :: body))

end

/-! ### Code positions -/

/-- The initial values among names and values in turn. -/
def initialValues : List Form → List Form
  | _ :: init :: rest => init :: initialValues rest
  | _ => []

/-- The body of a clause, after its parameters. -/
def clauseCode : Form → List Form
  | .list (_ :: body) => body
  | _ => []

/-- The bodies of a function, given what follows its head. -/
def functionCode : List Form → List Form
  | .vector _ :: body => body
  | clauses => clauses.flatMap clauseCode

/-- The body of a method, after its name and parameters. -/
def memberCode : Form → List Form
  | .list (_ :: _ :: body) => body
  | _ => []

/-- An operand of a handler is code, or a clause with a body. -/
def handlerCode (form : Form) : List Form :=
  if form.head? = some "catch" then form.operands.drop 1
  else if form.head? = some "finally" then form.operands
  else [form]

/-- The parts of what follows the head of a special form that stand where code is expected. -/
def codeOperands : SpecialForm → List Form → List Form
  | .quotation, _ => []
  | .definition, operands => operands.drop 1
  | .function, operands => functionCode operands
  | .macroDefinition, operands => functionCode (operands.drop 1)
  | .loop, .vector names :: body => initialValues names ++ body
  | .loop, operands => operands.drop 1
  | .trying, operands => operands.flatMap handlerCode
  | .method, [object, .list (_ :: args)] => object :: args
  | .method, operands => operands.take 1
  | .property, operands => operands.take 1
  | .typeDefinition, operands => (operands.drop 2).flatMap memberCode
  | .protocolDefinition, operands => (operands.drop 1).flatMap memberCode
  | _, operands => operands

end Grammar

/-- The parts of a form that stand where code is expected. -/
def Form.codeParts : Form → List Form
  | .list (.symbol name :: operands) =>
    match SpecialForm.ofName? name with
    | some head => Grammar.codeOperands head operands
    | none => .symbol name :: operands
  | form => form.parts

namespace Grammar

/-! ### Heads of lists -/

/-- The table of special names is what the look-up by name gives. -/
theorem ofName?_eq_some_iff {name : String} {head : SpecialForm} :
    SpecialForm.ofName? name = some head ↔ (name, head) ∈ specialNames := by
  constructor
  · intro named
    have spelled := List.find?_some named
    obtain rfl : head.name = name := eq_of_beq spelled
    cases head <;> decide
  · intro member
    have each : ∀ p ∈ specialNames, SpecialForm.ofName? p.1 = some p.2 := by decide
    exact each _ member

/-- The number of operands that an operator takes, if it is fixed. -/
def operandCount : Operator → Option Nat
  | .binary _ => some 2
  | .unary _ => some 1
  | .arithmetic _ => none

/-- Every operator that a name stands for is in the table, with its number of operands. -/
theorem mem_operatorNames {name : String} {operator : Operator}
    (named : Operator.ofName? name = some operator) :
    (name, operandCount operator) ∈ operatorNames := by
  simp only [Operator.ofName?, Option.or_eq_some_iff, Option.map_eq_some_iff] at named
  rcases named with ⟨o, found, rfl⟩ | ⟨_, ⟨o, found, rfl⟩ | ⟨_, o, found, rfl⟩⟩
  all_goals
    have spelled := List.find?_some found
    obtain rfl : o.name = name := eq_of_beq spelled
    cases o <;> decide

/-- Every name in the table stands for an operator. -/
theorem ofName?_of_mem_operatorNames {name : String} {count : Option Nat}
    (member : (name, count) ∈ operatorNames) :
    ∃ operator, Operator.ofName? name = some operator ∧ operandCount operator = count := by
  have each : ∀ p ∈ operatorNames, (Operator.ofName? p.1).map operandCount = some p.2 := by decide
  exact Option.map_eq_some_iff.mp (each _ member)

/-- A name is free if neither look-up knows it. -/
theorem free_iff {name : String} :
    Free name ↔ SpecialForm.ofName? name = none ∧ Operator.ofName? name = none := by
  simp only [Free, List.mem_map, Prod.exists, not_exists, Option.eq_none_iff_forall_ne_some, ne_eq]
  refine and_congr ⟨?_, ?_⟩ ⟨?_, ?_⟩
  · intro unnamed head named
    exact unnamed _ _ ⟨ofName?_eq_some_iff.mp named, rfl⟩
  · rintro unnamed _ head ⟨member, rfl⟩
    exact unnamed head (ofName?_eq_some_iff.mpr member)
  · intro unnamed operator named
    exact unnamed _ _ ⟨mem_operatorNames named, rfl⟩
  · rintro unnamed _ count ⟨member, rfl⟩
    obtain ⟨operator, named, _⟩ := ofName?_of_mem_operatorNames member
    exact unnamed operator named

/-- No name is in both tables, so the rules of the grammar do not overlap. -/
theorem special_ne_operator {name : String} {head : SpecialForm} {count : Option Nat}
    (special : (name, head) ∈ specialNames) (operator : (name, count) ∈ operatorNames) : False := by
  have apart : ∀ p ∈ specialNames, ∀ q ∈ operatorNames, p.1 ≠ q.1 := by decide
  exact apart _ special _ operator rfl

/-- At a special name only the rule for its form applies. -/
theorem code_special_iff {name : String} {head : SpecialForm}
    (named : SpecialForm.ofName? name = some head) (operands : List Form) :
    Code (.list (.symbol name :: operands)) ↔ Operands head operands := by
  have listed := ofName?_eq_some_iff.mp named
  refine ⟨fun code => ?_, .special listed⟩
  cases code with
  | special other shaped =>
    rw [ofName?_eq_some_iff.mpr other] at named
    cases named
    exact shaped
  | operation other => exact (special_ne_operator listed other).elim
  | call free =>
    rw [(free_iff.mp (free name rfl)).1] at named
    cases named

/-- At an operator's name only the rule for operations applies. -/
theorem code_operation_iff {name : String} {operator : Operator}
    (named : Operator.ofName? name = some operator) (operands : List Form) :
    Code (.list (.symbol name :: operands)) ↔
      (∀ n ∈ operandCount operator, operands.length = n) ∧ ∀ f ∈ operands, Code f := by
  have listed := mem_operatorNames named
  refine ⟨fun code => ?_, fun ⟨counted, each⟩ => .operation listed counted each⟩
  cases code with
  | special other => exact (special_ne_operator other listed).elim
  | operation other counted each =>
    obtain ⟨same, found, rfl⟩ := ofName?_of_mem_operatorNames other
    rw [found] at named
    cases named
    exact ⟨counted, each⟩
  | call free =>
    rw [(free_iff.mp (free name rfl)).2] at named
    cases named

/-- At any other head only the rule for calls applies. -/
theorem code_call_iff {head : Form} (free : ∀ name, head = .symbol name → Free name)
    (operands : List Form) :
    Code (.list (head :: operands)) ↔ Code head ∧ ∀ f ∈ operands, Code f := by
  refine ⟨fun code => ?_, fun ⟨invoked, each⟩ => .call free invoked each⟩
  cases code with
  | special other =>
    have unnamed := (free_iff.mp (free _ rfl)).1
    rw [ofName?_eq_some_iff.mpr other] at unnamed
    cases unnamed
  | operation other =>
    obtain ⟨_, found, _⟩ := ofName?_of_mem_operatorNames other
    have unnamed := (free_iff.mp (free _ rfl)).2
    rw [found] at unnamed
    cases unnamed
  | call _ invoked each => exact ⟨invoked, each⟩

/-! ### Where code stands -/

theorem mem_of_mem_initialValues {names : List Form} {part : Form}
    (member : part ∈ initialValues names) : part ∈ names := by
  fun_induction initialValues names with
  | case1 name init rest ih =>
    rcases List.mem_cons.mp member with rfl | later
    · simp
    · simp [ih later]
  | case2 => cases member

theorem mem_parts_of_mem_clauseCode {clause part : Form} (member : part ∈ clauseCode clause) :
    part ∈ clause.parts := by
  unfold clauseCode at member
  split at member
  · exact List.mem_cons_of_mem _ member
  · cases member

theorem mem_parts_of_mem_memberCode {form part : Form} (member : part ∈ memberCode form) :
    part ∈ form.parts := by
  unfold memberCode at member
  split at member
  · exact List.mem_cons_of_mem _ (List.mem_cons_of_mem _ member)
  · cases member

/-- Where code inside some operands stands: it is an operand or a part of one. -/
def Held (part : Form) (operands : List Form) : Prop :=
  ∃ operand ∈ operands, part = operand ∨ part ∈ operand.parts

/-- Parts of operands that are looked into one by one are held by them. -/
theorem held_flatMap {code : Form → List Form} {operands : List Form} {part : Form}
    (inside : ∀ operand part, part ∈ code operand → part = operand ∨ part ∈ operand.parts)
    (member : part ∈ operands.flatMap code) : Held part operands := by
  obtain ⟨operand, within, member⟩ := List.mem_flatMap.mp member
  exact ⟨operand, within, inside operand part member⟩

/-- The code of a function stands inside of its definition. -/
theorem held_functionCode {definition : List Form} {part : Form}
    (member : part ∈ functionCode definition) : Held part definition := by
  unfold functionCode at member
  split at member
  · exact ⟨part, List.mem_cons_of_mem _ member, .inl rfl⟩
  · exact held_flatMap (fun _ _ member => .inr (mem_parts_of_mem_clauseCode member)) member

theorem mem_parts_of_mem_operands {form part : Form} (member : part ∈ form.operands) :
    part ∈ form.parts := by
  unfold Form.operands at member
  split at member
  · exact List.mem_cons_of_mem _ member
  · cases member

/-- The code of a handler clause is the clause itself or stands inside of it. -/
theorem held_handlerCode {operand part : Form} (member : part ∈ handlerCode operand) :
    part = operand ∨ part ∈ operand.parts := by
  unfold handlerCode at member
  split at member
  · exact .inr (mem_parts_of_mem_operands (List.mem_of_mem_drop member))
  · split at member
    · exact .inr (mem_parts_of_mem_operands member)
    · exact .inl (List.mem_singleton.mp member)

/-- Code inside an operand is the operand or a part of it. -/
theorem held_codeOperands {head : SpecialForm} {operands : List Form} {part : Form}
    (member : part ∈ codeOperands head operands) : Held part operands := by
  have operand {operands : List Form} (member : part ∈ operands) : Held part operands :=
    ⟨part, member, .inl rfl⟩
  have dropped {count : Nat} (held : Held part (operands.drop count)) : Held part operands := by
    obtain ⟨operand, within, inside⟩ := held
    exact ⟨operand, List.mem_of_mem_drop within, inside⟩
  unfold codeOperands at member
  split at member
  case h_1 => cases member
  case h_2 => exact dropped (operand member)
  case h_3 => exact held_functionCode member
  case h_4 => exact dropped (held_functionCode member)
  case h_5 names body =>
    rcases List.mem_append.mp member with init | inBody
    · exact ⟨.vector names, List.mem_cons_self, .inr (mem_of_mem_initialValues init)⟩
    · exact operand (List.mem_cons_of_mem _ inBody)
  case h_6 => exact dropped (operand member)
  case h_7 => exact held_flatMap (fun _ _ => held_handlerCode) member
  case h_8 object method args =>
    rcases List.mem_cons.mp member with rfl | inArgs
    · exact operand List.mem_cons_self
    · exact ⟨.list (method :: args), by simp, .inr (List.mem_cons_of_mem _ inArgs)⟩
  case h_9 => exact operand (List.mem_of_mem_take member)
  case h_10 => exact operand (List.mem_of_mem_take member)
  case h_11 => exact dropped (held_flatMap (fun _ _ => .inr ∘ mem_parts_of_mem_memberCode) member)
  case h_12 => exact dropped (held_flatMap (fun _ _ => .inr ∘ mem_parts_of_mem_memberCode) member)
  case h_13 => exact operand member

end Grammar

namespace Form

/-- In a literal all parts are code. -/
theorem codeParts_of_not_list {form : Form} (noList : ∀ elements, form ≠ .list elements) :
    form.codeParts = form.parts := by
  cases form with
  | list elements => exact absurd rfl (noList elements)
  | _ => rfl

/-- Code positions are smaller, so induction on forms reaches them. -/
theorem sizeOf_lt_of_mem_codeParts {form part : Form} (member : part ∈ form.codeParts) :
    sizeOf part < sizeOf form := by
  unfold Form.codeParts at member
  split at member
  · rename_i name operands
    have held : Grammar.Held part (.symbol name :: operands) := by
      split at member
      · obtain ⟨operand, within, same⟩ := Grammar.held_codeOperands member
        exact ⟨operand, List.mem_cons_of_mem _ within, same⟩
      · exact ⟨part, member, .inl rfl⟩
    obtain ⟨operand, within, rfl | inside⟩ := held
    · exact sizeOf_lt_of_mem_parts within
    · exact Nat.lt_trans (sizeOf_lt_of_mem_parts inside) (sizeOf_lt_of_mem_parts within)
  · exact sizeOf_lt_of_mem_parts member

end Form

end ScriptLisp
