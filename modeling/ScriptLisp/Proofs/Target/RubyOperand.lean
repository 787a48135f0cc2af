import ScriptLisp.Proofs.Target.RubyText

/-!
Operands in Ruby. The text of a node is the same wherever the node stands, so an operand is whatever
its node is on its own: a macro definition is no text at all, and a definition in a namespace is
several statements. Most nodes put brackets around their parts, which keep such statements inside.
What is written without brackets lets them out, and a name before the statements of its value does
not hold them together.

* `operands`: the nodes that are written as arguments, elements and operands, and after an equals
  sign.
* `Receives`: the part of a node that stands at the start of its text, without brackets.
* `Blank`, `Splits`: the nodes without text, and those with several statements.
* `operand_single_iff`: the operands that are no single expression are those of `Blank` and
  `Splits`.
-/

namespace ScriptLisp.Ruby

open Delimiters Target

/-! ### Operands and their texts -/

/-- The nodes that are written in a node as arguments, as elements of a collection, as operands of
an operator or as a value behind an equals sign. -/
def operands : Node → List Node
  | .vector nodes | .list nodes | .set nodes | .classInstantiation _ nodes
  | .methodResolution _ _ nodes | .application _ nodes _ | .arithmetic _ nodes => nodes
  | .map entries => entries.flatMap fun (key, value) => [key, value]
  | .exception operand | .unary _ operand | .definition _ operand | .assignment _ operand =>
    [operand]
  | .binary _ left right => [left, right]
  | _ => []

/-- A text stands in another one. -/
def Spliced (part text : String) : Prop :=
  ∃ before after, text = before ++ part ++ after

namespace Spliced

variable {part a b text separator : String} {texts : List String}

theorem refl (text : String) : Spliced text text :=
  ⟨"", "", by simp⟩

theorem left (spliced : Spliced part a) (b : String) : Spliced part (a ++ b) := by
  obtain ⟨before, after, rfl⟩ := spliced
  exact ⟨before, after ++ b, by simp [String.append_assoc]⟩

theorem right (a : String) (spliced : Spliced part b) : Spliced part (a ++ b) := by
  obtain ⟨before, after, rfl⟩ := spliced
  exact ⟨a ++ before, after, by simp [String.append_assoc]⟩

theorem trans (first : Spliced part a) (second : Spliced a b) : Spliced part b := by
  obtain ⟨before, after, rfl⟩ := second
  exact (first.right before).left after

/-- Between brackets, or a token and what follows it. -/
theorem between (before part after : String) : Spliced part (before ++ part ++ after) :=
  ⟨before, after, rfl⟩

theorem intercalate (listed : text ∈ texts) : Spliced text (separator.intercalate texts) := by
  induction texts with
  | nil => cases listed
  | cons first rest ih =>
    cases rest with
    | nil =>
      rw [List.mem_singleton.mp listed, String.intercalate_singleton]
      exact .refl first
    | cons second others =>
      rw [String.intercalate_cons_cons]
      rcases List.mem_cons.mp listed with rfl | listed
      · exact .left (.left (.refl text) _) _
      · exact .right _ (ih listed)

end Spliced

/-- The texts of nodes hold that of each of them. -/
theorem exists_mem_of_emitAll {nodes : List Node} {texts : List String}
    (made : emitAll nodes = .ok texts) : ∀ node ∈ nodes, ∃ t ∈ texts, emit node = .ok t := by
  induction nodes generalizing texts with
  | nil => simp
  | cons node nodes ih =>
    rw [emitAll] at made
    obtain ⟨text, first, made⟩ := ok_of_bind made
    obtain ⟨others, rest, made⟩ := ok_of_bind made
    cases made
    refine List.forall_mem_cons.mpr ⟨⟨text, List.mem_cons_self, first⟩, fun node listed => ?_⟩
    obtain ⟨t, among, emitted⟩ := ih rest node listed
    exact ⟨t, List.mem_cons_of_mem _ among, emitted⟩

theorem length_of_emitAll {nodes : List Node} {texts : List String}
    (made : emitAll nodes = .ok texts) : texts.length = nodes.length := by
  induction nodes generalizing texts with
  | nil =>
    rw [emitAll] at made
    cases made
    rfl
  | cons node nodes ih =>
    rw [emitAll] at made
    obtain ⟨text, -, made⟩ := ok_of_bind made
    obtain ⟨others, rest, made⟩ := ok_of_bind made
    cases made
    exact congrArg (· + 1) (ih rest)

/-- The texts of entries hold those of their keys and values. -/
theorem exists_mem_of_emitEntries {entries : List (Node × Node)} {texts : List String}
    (made : emitEntries entries = .ok texts) : ∀ entry ∈ entries, ∃ key value,
      emit entry.1 = .ok key ∧ emit entry.2 = .ok value ∧ (key ++ " => " ++ value) ∈ texts := by
  induction entries generalizing texts with
  | nil => simp
  | cons entry entries ih =>
    rw [emitEntries] at made
    obtain ⟨key, madeKey, made⟩ := ok_of_bind made
    obtain ⟨value, madeValue, made⟩ := ok_of_bind made
    obtain ⟨others, rest, made⟩ := ok_of_bind made
    cases made
    refine List.forall_mem_cons.mpr
      ⟨⟨key, value, madeKey, madeValue, List.mem_cons_self⟩, fun entry listed => ?_⟩
    obtain ⟨key, value, madeKey, madeValue, among⟩ := ih rest entry listed
    exact ⟨key, value, madeKey, madeValue, List.mem_cons_of_mem _ among⟩

/-- An inlined call holds all of its arguments. -/
theorem spliced_inlined {invocable : Node} {args : List String} {arg text : String}
    (inlined : inlined? invocable args = some text) (listed : arg ∈ args) : Spliced arg text := by
  unfold inlined? at inlined
  split at inlined
  · unfold primitive? at inlined
    split at inlined
    · next array index =>
      cases inlined
      simp only [List.mem_cons, List.not_mem_nil, or_false] at listed
      rcases listed with rfl | rfl
      · exact .left (.left (.left (.refl _) _) _) _
      · exact .between _ _ _
    · next array index value =>
      cases inlined
      simp only [List.mem_cons, List.not_mem_nil, or_false] at listed
      rcases listed with rfl | rfl | rfl
      · exact .left (.left (.left (.left (.between _ _ _) _) _) _) _
      · exact .left (.left (.left (.right _ (.refl _)) _) _) _
      · exact .between _ _ _
    · cases inlined
      exact .left (.right _ (.intercalate listed)) _
    · cases inlined
      exact .left (.right _ (.intercalate listed)) _
    · cases inlined
      exact .left (.right _ (.intercalate listed)) _
    · cases inlined
  · cases inlined

theorem spliced_prefixed (token operand : String) : Spliced operand (prefixed token operand) := by
  rw [prefixed_eq]
  split
  · exact .between _ _ _
  · exact .right _ (.refl _)

/-- Arithmetic holds all of its operands. -/
theorem spliced_arithmetic {operator : ArithmeticOperator} {token arg : String}
    {args : List String} (listed : arg ∈ args) :
    Spliced arg (arithmeticText operator token args) := by
  match args with
  | [operand] =>
    rw [List.mem_singleton.mp listed, arithmeticText_single]
    split
    · exact spliced_prefixed token operand
    · exact .refl operand
  | first :: second :: others => exact .left (.right _ (.intercalate listed)) _

/-- The first and the last of several texts with a separator between them. -/
theorem intercalate_concat (separator first last : String) (rest : List String) :
    ∃ between, separator.intercalate (first :: (rest ++ [last])) =
      first ++ (separator ++ between ++ last) := by
  induction rest generalizing first with
  | nil =>
    refine ⟨"", ?_⟩
    rw [List.nil_append, String.intercalate_cons_cons, String.intercalate_singleton,
      String.append_empty, String.append_assoc]
  | cons second rest ih =>
    obtain ⟨between, written⟩ := ih second
    refine ⟨second ++ separator ++ between, ?_⟩
    rw [List.cons_append, String.intercalate_cons_cons, written]
    simp only [String.append_assoc]

/-- A definition is its value behind a name, and in a namespace it opens a module before. -/
theorem definitionText_cases (name : Variable) (value : String) :
    (name.qualifier = none ∧ definitionText name value = name.base ++ " = " ++ value) ∨
      name.qualifier ≠ none ∧ ∃ segment ∈ name.segments, ∃ between,
        definitionText name value =
          "module " ++ modulePath [segment] ++ ("; end" ++ between ++ value) := by
  cases nested : name.segments with
  | nil =>
    refine .inl ⟨Variable.segments_eq_nil_iff.mp nested, ?_⟩
    rw [definitionText, nested]
  | cons segment segments =>
    refine .inr ⟨fun unqualified => ?_, segment, List.mem_cons_self, ?_⟩
    · rw [Variable.segments_eq_nil_iff.mpr unqualified] at nested
      cases nested
    · obtain ⟨between, written⟩ := intercalate_concat "; "
        ("module " ++ modulePath [segment] ++ "; end")
        (modulePath (segment :: segments) ++ "." ++ name.base ++ " = " ++ value)
        (((beginnings segments).map (segment :: ·)).map
            (fun path => "module " ++ modulePath path ++ "; end") ++
          [modulePath (segment :: segments) ++ ".singleton_class.attr_accessor(:" ++ name.base
            ++ ")"])
      refine ⟨"; " ++ between ++ modulePath (segment :: segments) ++ "." ++ name.base ++ " = ", ?_⟩
      rw [definitionText, nested]
      simp only [beginnings, List.map_cons, List.cons_append]
      rw [List.append_assoc, List.singleton_append] at written
      rw [written]
      simp only [String.append_assoc]

theorem spliced_definition (name : Variable) (value : String) :
    Spliced value (definitionText name value) := by
  rcases definitionText_cases name value with ⟨-, written⟩ | ⟨-, segment, -, between, written⟩
  · exact written ▸ .right _ (.refl value)
  · exact written ▸ .right _ (.right _ (.refl value))

/-- An operator holds both of its operands, be it a token or a method. -/
theorem spliced_binary {operator : BinaryOperator} {left right text : String}
    (written : binaryText? operator left right = some text) :
    Spliced left text ∧ Spliced right text := by
  unfold binaryText? at written
  split at written
  · cases written
    exact ⟨.left (.left (.left (.right _ (.refl left)) _) _) _, .between _ _ _⟩
  · cases written
    exact ⟨.left (.left (.left (.left (.left (.right _ (.refl left)) _) _) _) _) _,
      .between _ _ _⟩
  · cases written

/-- An operator without a text fails; with one, its operands have texts. -/
theorem emit_binary {operator : BinaryOperator} {left right : Node} {text : String}
    (emitted : emit (.binary operator left right) = .ok text) : ∃ leftText rightText,
      emit left = .ok leftText ∧ emit right = .ok rightText ∧
        binaryText? operator leftText rightText = some text := by
  rw [emit, ensureSupported_bind rfl] at emitted
  obtain ⟨leftText, madeLeft, emitted⟩ := ok_of_bind emitted
  obtain ⟨rightText, madeRight, emitted⟩ := ok_of_bind emitted
  refine ⟨leftText, rightText, madeLeft, madeRight, ?_⟩
  split at emitted
  · next written => exact written.trans (congrArg some (Except.ok.inj emitted))
  · cases emitted

/-- Nodes with a text stand in whatever all of their texts are spliced into. -/
theorem spliced_all {nodes : List Node} {texts : List String} {text : String}
    (made : emitAll nodes = .ok texts) (each : ∀ t ∈ texts, Spliced t text) :
    ∀ node ∈ nodes, ∃ t, emit node = .ok t ∧ Spliced t text := by
  intro node listed
  obtain ⟨t, among, emitted⟩ := exists_mem_of_emitAll made node listed
  exact ⟨t, emitted, each t among⟩

/-- When a node has a text, its operands have texts that are spliced into it. -/
theorem spliced_operand {node : Node} {text : String} (emitted : emit node = .ok text) :
    ∀ operand ∈ operands node, ∃ t, emit operand = .ok t ∧ Spliced t text := by
  have listed {before after : String} {texts : List String} :
      ∀ t ∈ texts, Spliced t (before ++ commas texts ++ after) :=
    fun t among => .left (.right _ (.intercalate among)) _
  cases node with
  | vector nodes | list nodes | set nodes =>
    rw [emit, ensureSupported_bind rfl] at emitted
    obtain ⟨texts, made, emitted⟩ := ok_of_bind emitted
    cases emitted
    exact spliced_all made listed
  | classInstantiation constructor args | methodResolution object method args =>
    rw [emit, ensureSupported_bind rfl] at emitted
    obtain ⟨receiver, -, emitted⟩ := ok_of_bind emitted
    obtain ⟨texts, made, emitted⟩ := ok_of_bind emitted
    cases emitted
    exact spliced_all made listed
  | application invocable args tail =>
    rw [emit, ensureSupported_bind rfl] at emitted
    obtain ⟨texts, made, emitted⟩ := ok_of_bind emitted
    split at emitted
    · next inlined =>
      cases emitted
      exact spliced_all made fun t among => spliced_inlined inlined among
    · obtain ⟨callee, -, emitted⟩ := ok_of_bind emitted
      cases emitted
      exact spliced_all made listed
  | arithmetic operator args =>
    rw [emit, ensureSupported_bind rfl] at emitted
    obtain ⟨texts, made, emitted⟩ := ok_of_bind emitted
    cases emitted
    exact spliced_all made fun t among => spliced_arithmetic among
  | map entries =>
    rw [emit, ensureSupported_bind rfl] at emitted
    obtain ⟨texts, made, emitted⟩ := ok_of_bind emitted
    cases emitted
    refine List.forall_mem_flatMap.mpr fun entry member => ?_
    -- A key and its value are spliced into their entry, and the entry into the map.
    obtain ⟨key, value, madeKey, madeValue, among⟩ := exists_mem_of_emitEntries made entry member
    have inside : Spliced (key ++ " => " ++ value) ("WS::Map[" ++ commas texts ++ "]") :=
      listed _ among
    simp only [List.forall_mem_cons]
    exact ⟨⟨key, madeKey, .trans (.left (.left (.refl key) _) _) inside⟩,
      ⟨value, madeValue, .trans (.right _ (.refl value)) inside⟩, by simp⟩
  | exception operand | unary operator operand =>
    rw [emit, ensureSupported_bind rfl] at emitted
    obtain ⟨t, made, emitted⟩ := ok_of_bind emitted
    cases emitted
    exact List.forall_mem_singleton.mpr ⟨t, made, .between _ _ _⟩
  | definition name operand =>
    rw [emit, ensureSupported_bind rfl] at emitted
    obtain ⟨t, made, emitted⟩ := ok_of_bind emitted
    cases emitted
    exact List.forall_mem_singleton.mpr ⟨t, made, spliced_definition name t⟩
  | assignment target operand =>
    rw [emit, ensureSupported_bind rfl] at emitted
    obtain ⟨_, -, emitted⟩ := ok_of_bind emitted
    obtain ⟨t, made, emitted⟩ := ok_of_bind emitted
    cases emitted
    exact List.forall_mem_singleton.mpr ⟨t, made, .between _ _ _⟩
  | binary operator left right =>
    obtain ⟨leftText, rightText, madeLeft, madeRight, written⟩ := emit_binary emitted
    obtain ⟨first, second⟩ := spliced_binary written
    simp only [operands, List.forall_mem_cons]
    exact ⟨⟨leftText, madeLeft, first⟩, ⟨rightText, madeRight, second⟩, by simp⟩
  | _ => exact List.forall_mem_nil _

/-- The variables of an operand are among those of the node. -/
theorem mem_names_of_operand {node operand : Node} (member : operand ∈ operands node) {v : Variable}
    (named : v ∈ operand.names) : v ∈ node.names := by
  cases node with
  | map entries =>
    obtain ⟨entry, listed, member⟩ := List.mem_flatMap.mp member
    simp only [List.mem_cons, List.not_mem_nil, or_false] at member
    rw [Node.names, Node.mem_namesOfEntries]
    rcases member with rfl | rfl
    · exact ⟨entry, listed, .inl named⟩
    · exact ⟨entry, listed, .inr named⟩
  | vector | list | set | classInstantiation | methodResolution | application | arithmetic =>
    simp only [operands] at member
    simp only [Node.names, List.mem_append, List.mem_cons, Node.mem_namesOfAll]
    grind
  | exception | unary | definition | assignment | binary =>
    simp only [operands, List.mem_cons, List.not_mem_nil, or_false] at member
    simp only [Node.names, List.mem_append, List.mem_cons]
    grind
  | _ => cases member

theorem inert_operand {node operand : Node} (inert : node.IsInert)
    (member : operand ∈ operands node) : operand.IsInert :=
  fun v named => inert v (mem_names_of_operand member named)

/-! ### Nodes without text -/

/-- The nodes without text: macro definitions, also as the only operand of a product or quotient. -/
inductive Blank : Node → Prop
  | macroDefinition {name : Name} {function : Lambda} : Blank (.macroDefinition name function)
  | only {operator : ArithmeticOperator} {operand : Node} (noSign : operator.sign? = none)
      (blank : Blank operand) : Blank (.arithmetic operator [operand])

/-- An operator on one operand has a text if the operand has one. -/
theorem emit_single_iff {operator : ArithmeticOperator} {operand : Node} {text : String} :
    emit (.arithmetic operator [operand]) = .ok text ↔ ∃ t, emit operand = .ok t ∧
      text = if operator.sign?.isSome then prefixed (arithmeticToken operator) t else t := by
  rw [emit, ensureSupported_bind rfl, emitAll, emitAll]
  cases emit operand with
  | error failure =>
    constructor
    · intro made
      cases made
    · rintro ⟨t, made, -⟩
      cases made
  | ok t =>
    change Except.ok (arithmeticText operator (arithmeticToken operator) [t]) = .ok text ↔ _
    rw [arithmeticText_single]
    refine ⟨fun same => ⟨t, rfl, (Except.ok.inj same).symm⟩, ?_⟩
    rintro ⟨_, made, rfl⟩
    cases made
    rfl

/-- An operator on several operands is written between them, in brackets. -/
theorem emit_chain {operator : ArithmeticOperator} {first second : Node} {others : List Node}
    {text : String} (emitted : emit (.arithmetic operator (first :: second :: others)) = .ok text) :
    ∃ texts, emitAll (first :: second :: others) = .ok texts ∧
      text = "(" ++ (arithmeticToken operator).intercalate texts ++ ")" := by
  rw [emit, ensureSupported_bind rfl] at emitted
  obtain ⟨texts, made, emitted⟩ := ok_of_bind emitted
  refine ⟨texts, made, ?_⟩
  cases emitted
  have length := length_of_emitAll made
  rcases texts with _ | ⟨firstText, _ | ⟨secondText, otherTexts⟩⟩
  · simp at length
  · simp at length
  · rfl

theorem emit_blank {node : Node} (blank : Blank node) : emit node = .ok "" := by
  induction blank with
  | macroDefinition =>
    rw [emit, ensureSupported_bind rfl]
    rfl
  | only noSign _ ih => exact emit_single_iff.mpr ⟨"", ih, by rw [noSign]; rfl⟩

theorem inlined_ne_empty {invocable : Node} {args : List String} {text : String}
    (inlined : inlined? invocable args = some text) : text ≠ "" := by
  unfold inlined? at inlined
  split at inlined
  · unfold primitive? at inlined
    split at inlined <;> cases inlined <;> simp
  · cases inlined

/-- Every node with a text has one of its own, unless it is a macro definition or has a single
operand. -/
theorem macro_or_single {node : Node} (inert : node.IsInert) (empty : emit node = .ok "") :
    (∃ name function, node = .macroDefinition name function) ∨
      ∃ operator operand, node = .arithmetic operator [operand] := by
  cases node with
  | macroDefinition name function => exact .inl ⟨name, function, rfl⟩
  | arithmetic operator args =>
    rcases args with _ | ⟨operand, _ | ⟨second, others⟩⟩
    · cases operator <;> exact absurd (Except.ok.inj empty) (by decide)
    · exact .inr ⟨operator, operand, rfl⟩
    · obtain ⟨texts, -, written⟩ := emit_chain empty
      simp at written
  | reference v =>
    have named := (inert v List.mem_cons_self).base_ne_empty
    rw [emit, ensureSupported_bind rfl] at empty
    have written := Except.ok.inj empty
    unfold variableText at written
    split at written
    · exact absurd written named
    · simp at written
  | nil | string | rational =>
    rw [emit, ensureSupported_bind rfl] at empty
    have written := Except.ok.inj empty
    simp [quoted] at written
  | boolean =>
    rw [emit, ensureSupported_bind rfl] at empty
    have written := Except.ok.inj empty
    split at written <;> simp at written
  | integer | decimal | keyword | symbol =>
    rw [emit, ensureSupported_bind rfl] at empty
    have written := Except.ok.inj empty
    simp only [integerText, decimalText, keywordText, symbolText] at written
    split at written <;> simp [integer_ne_empty, decimal_ne_empty] at written
  | vector | list | set | map | block | exception | unary | propertyResolution =>
    rw [emit, ensureSupported_bind rfl] at empty
    obtain ⟨_, -, empty⟩ := ok_of_bind empty
    have written := Except.ok.inj empty
    simp at written
  | classInstantiation | methodResolution | assignment =>
    rw [emit, ensureSupported_bind rfl] at empty
    obtain ⟨_, -, empty⟩ := ok_of_bind empty
    obtain ⟨_, -, empty⟩ := ok_of_bind empty
    have written := Except.ok.inj empty
    simp at written
  | binary operator left right =>
    obtain ⟨_, _, -, -, written⟩ := emit_binary empty
    unfold binaryText? at written
    split at written <;> simp at written
  | conditional branches otherwise =>
    rw [emit, ensureSupported_bind rfl] at empty
    obtain ⟨_, -, empty⟩ := ok_of_bind empty
    obtain ⟨_, -, empty⟩ := ok_of_bind empty
    have written := Except.ok.inj empty
    unfold conditionalText at written
    split at written <;> simp at written
  | definition name value =>
    rw [emit, ensureSupported_bind rfl] at empty
    obtain ⟨valueText, -, empty⟩ := ok_of_bind empty
    have written := Except.ok.inj empty
    rcases definitionText_cases name valueText with ⟨-, defined⟩ | ⟨-, _, -, _, defined⟩
    · simp [defined] at written
    · simp [defined] at written
  | application invocable args tail =>
    rw [emit, ensureSupported_bind rfl] at empty
    obtain ⟨texts, -, empty⟩ := ok_of_bind empty
    split at empty
    · next inlined =>
      cases empty
      exact absurd rfl (inlined_ne_empty inlined)
    · obtain ⟨callee, -, empty⟩ := ok_of_bind empty
      have written := Except.ok.inj empty
      simp [callText] at written
  | lambda function =>
    rw [emit, ensureSupported_bind rfl] at empty
    rcases function with ⟨params, body⟩ | clauses
    · rw [emitLambda] at empty
      obtain ⟨texts, -, empty⟩ := ok_of_bind empty
      have written := Except.ok.inj empty
      simp only [functionText] at written
      split at written <;> simp at written
    · rw [emitLambda] at empty
      obtain ⟨ordered, -, empty⟩ := ok_of_bind empty
      have written := Except.ok.inj empty
      simp [dispatchText] at written
  | loop | recursionPoint | exceptionHandler | typeDefinition | protocolDefinition =>
    rw [emit] at empty
    cases empty

theorem blank_of_empty (node : Node) (inert : node.IsInert) (empty : emit node = .ok "") :
    Blank node := by
  rcases macro_or_single inert empty with ⟨name, function, rfl⟩ | ⟨operator, operand, rfl⟩
  · exact .macroDefinition
  · obtain ⟨t, made, written⟩ := emit_single_iff.mp empty
    have inertOperand : operand.IsInert := inert_operand inert List.mem_cons_self
    cases sign : operator.sign? with
    | some c =>
      have filled : prefixed (arithmeticToken operator) t ≠ "" := by
        cases operator <;> exact prefixed_ne_empty (.inl (by decide))
      rw [sign] at written
      exact absurd written.symm filled
    | none =>
      rw [sign] at written
      exact .only sign (blank_of_empty operand inertOperand (written ▸ made))
termination_by sizeOf node

/-! ### Nodes of several statements -/

/-- The part of a node that its text starts with, without brackets. -/
inductive Receives : Node → Node → Prop
  | construct {constructor : Node} {args : List Node} :
      Receives (.classInstantiation constructor args) constructor
  | method {object : Node} {method : Variable} {args : List Node} :
      Receives (.methodResolution object method args) object
  | property {object : Node} {property : Variable} :
      Receives (.propertyResolution object property) object
  | call {invocable : Node} {args : List Node} {tail : Bool}
      (written : ∀ texts, emitAll args = .ok texts → inlined? invocable texts = none) :
      Receives (.application invocable args tail) invocable
  | element {array index : Node} {tail : Bool} :
      Receives (.application (.reference ⟨none, "aget"⟩) [array, index] tail) array

/-- The nodes whose text is several statements: definitions in a namespace, definitions of what is
several statements, and what holds such a part without brackets. -/
inductive Splits : Node → Prop
  | namespaced {name : Variable} {value : Node} (qualified : name.qualifier ≠ none) :
      Splits (.definition name value)
  | value {name : Variable} {value : Node} (splits : Splits value) :
      Splits (.definition name value)
  | signed {operator : ArithmeticOperator} {operand : Node} {text : String}
      (emitted : emit operand = .ok text) (unsigned : isSigned text = false)
      (splits : Splits operand) : Splits (.arithmetic operator [operand])
  | only {operator : ArithmeticOperator} {operand : Node} (noSign : operator.sign? = none)
      (splits : Splits operand) : Splits (.arithmetic operator [operand])
  | behind {whole receiver : Node} (receives : Receives whole receiver)
      (splits : Splits receiver) : Splits whole

/-- A receiver is a part of the node. -/
theorem Receives.sizeOf_lt {whole receiver : Node} (receives : Receives whole receiver) :
    sizeOf receiver < sizeOf whole := by
  cases receives <;> simp +arith

theorem Receives.inert {whole receiver : Node} (receives : Receives whole receiver)
    (inert : whole.IsInert) : receiver.IsInert := by
  intro v named
  refine inert v ?_
  cases receives with
  | construct => exact List.mem_append_left _ named
  | method => exact List.mem_append_left _ (List.mem_cons_of_mem _ named)
  | property => exact List.mem_cons_of_mem _ named
  | call => exact List.mem_append_left _ named
  | element => exact mem_names_of_operand List.mem_cons_self named

/-- A node with a text starts with its receiver, and behind it semicolons stand in brackets. -/
theorem emit_receiver {whole receiver : Node} (inert : whole.IsInert)
    (receives : Receives whole receiver) {text : String} (emitted : emit whole = .ok text) :
    ∃ front rest, emit receiver = .ok front ∧ text = front ++ rest ∧ Closed .operand rest := by
  cases receives with
  | @construct _ args =>
    obtain ⟨-, inertArgs⟩ := List.forall_mem_append.mp inert
    rw [emit, ensureSupported_bind rfl] at emitted
    obtain ⟨front, made, emitted⟩ := ok_of_bind emitted
    obtain ⟨texts, madeArgs, emitted⟩ := ok_of_bind emitted
    cases emitted
    refine ⟨front, ".new(" ++ commas texts ++ ")", made, by simp only [String.append_assoc], ?_⟩
    exact .append (.spelledThen rfl rfl
      ((commas_closed (emitAll_closed args inertArgs madeArgs)).inside _ _)) (.spelled rfl rfl)
  | @method _ method args =>
    obtain ⟨inertNames, inertArgs⟩ := List.forall_mem_append.mp inert
    obtain ⟨inertMethod, -⟩ := List.forall_mem_cons.mp inertNames
    rw [emit, ensureSupported_bind rfl] at emitted
    obtain ⟨front, made, emitted⟩ := ok_of_bind emitted
    obtain ⟨texts, madeArgs, emitted⟩ := ok_of_bind emitted
    cases emitted
    refine ⟨front, "." ++ method.base ++ "(" ++ commas texts ++ ")", made,
      by simp only [String.append_assoc], ?_⟩
    exact .append (.append (.append (.spelledThen rfl rfl inertMethod.base_inert.closed)
      (.spelled rfl rfl)) ((commas_closed (emitAll_closed args inertArgs madeArgs)).inside _ _))
      (.spelled rfl rfl)
  | @property _ property =>
    obtain ⟨inertProperty, -⟩ := List.forall_mem_cons.mp inert
    rw [emit, ensureSupported_bind rfl] at emitted
    obtain ⟨front, made, emitted⟩ := ok_of_bind emitted
    cases emitted
    exact ⟨front, "." ++ property.base, made, by simp only [String.append_assoc],
      .spelledThen rfl rfl inertProperty.base_inert.closed⟩
  | @call _ args tail written =>
    obtain ⟨-, inertArgs⟩ := List.forall_mem_append.mp inert
    rw [emit, ensureSupported_bind rfl] at emitted
    obtain ⟨texts, madeArgs, emitted⟩ := ok_of_bind emitted
    rw [written texts madeArgs] at emitted
    obtain ⟨front, made, emitted⟩ := ok_of_bind emitted
    cases emitted
    exact ⟨front, "[" ++ commas texts ++ "]", made, by simp only [callText, String.append_assoc],
      indexed_closed (commas_closed (emitAll_closed args inertArgs madeArgs))⟩
  | @element _ index tail =>
    have inertIndex : index.IsInert :=
      inert_operand inert (List.mem_cons_of_mem _ List.mem_cons_self)
    rw [emit, ensureSupported_bind rfl, emitAll, emitAll] at emitted
    obtain ⟨texts, madeArgs, emitted⟩ := ok_of_bind emitted
    obtain ⟨front, made, madeArgs⟩ := ok_of_bind madeArgs
    obtain ⟨others, madeOthers, madeArgs⟩ := ok_of_bind madeArgs
    obtain ⟨indexText, madeIndex, madeOthers⟩ := ok_of_bind madeOthers
    cases madeOthers
    cases madeArgs
    cases emitted
    exact ⟨front, "[" ++ indexText ++ "]", made, by simp only [String.append_assoc],
      indexed_closed (emitted_closed index inertIndex madeIndex).free⟩

/-- Behind a semicolon outside of all brackets, a text does not become a single statement again. -/
theorem not_closed_separated (rest : String) : ¬ Closed .operand ("; end" ++ rest) := by
  intro closed
  unfold Closed Moves at closed
  rw [String.toList_append] at closed
  obtain ⟨admitted, -⟩ := scan_cons_inv closed
  cases admitted

theorem not_closed_namespaced {name : Variable} (inert : name.IsInert)
    (qualified : name.qualifier ≠ none) (value : String) :
    ¬ Closed .operand (definitionText name value) := by
  rcases definitionText_cases name value with
    ⟨unqualified, -⟩ | ⟨-, segment, listed, between, written⟩
  · exact absurd unqualified qualified
  · intro closed
    have opened : Closed .free ("module " ++ modulePath [segment]) :=
      .spelledThen rfl rfl
        (modulePath_closed (List.forall_mem_singleton.mpr (inert.segments_inert segment listed)))
    rw [written] at closed
    have separated := (opened.concat_iff.mp closed).2
    rw [String.append_assoc] at separated
    exact not_closed_separated _ separated

/-- What makes a node split makes its text several statements. -/
theorem not_closed_of_splits {node : Node} (splits : Splits node) (inert : node.IsInert)
    {text : String} (emitted : emit node = .ok text) : ¬ Closed .operand text := by
  induction splits generalizing text with
  | @namespaced name value qualified =>
    rw [emit, ensureSupported_bind rfl] at emitted
    obtain ⟨valueText, -, emitted⟩ := ok_of_bind emitted
    cases emitted
    exact not_closed_namespaced (inert name List.mem_cons_self) qualified valueText
  | @value name value splits ih =>
    obtain ⟨inertName, inertValue⟩ := List.forall_mem_cons.mp inert
    rw [emit, ensureSupported_bind rfl] at emitted
    obtain ⟨valueText, made, emitted⟩ := ok_of_bind emitted
    cases emitted
    by_cases qualified : name.qualifier = none
    · rw [definitionText, Variable.segments_eq_nil_iff.mpr qualified]
      intro closed
      have start : Closed .free (name.base ++ " = ") :=
        .append inertName.base_inert.closed (.spelled rfl rfl)
      exact ih inertValue made (start.concat_iff.mp closed).2
    · exact not_closed_namespaced inertName qualified valueText
  | @signed operator operand operandText made unsigned splits ih =>
    obtain ⟨t, madeToo, rfl⟩ := emit_single_iff.mp emitted
    cases made.symm.trans madeToo
    have opened := ih (inert_operand inert List.mem_cons_self) made
    split
    · rw [prefixed_eq, unsigned, if_neg Bool.false_ne_true,
        (arithmeticToken_closed .free operator).concat_iff]
      exact fun closed => opened closed.2
    · exact opened
  | @only operator operand noSign splits ih =>
    obtain ⟨t, made, rfl⟩ := emit_single_iff.mp emitted
    rw [noSign]
    exact ih (inert_operand inert List.mem_cons_self) made
  | behind receives _ ih =>
    have inertReceiver := receives.inert inert
    obtain ⟨front, rest, made, rfl, -⟩ := emit_receiver inert receives emitted
    intro closed
    have closedFront := (emitted_closed _ inertReceiver made).free
    exact ih inertReceiver made (closedFront.concat_iff.mp closed).1

/-- A text with a receiver in front is as many statements as the receiver. -/
theorem not_closed_receiver {whole receiver : Node} (inert : whole.IsInert)
    (receives : Receives whole receiver) {text : String} (emitted : emit whole = .ok text)
    (opened : ¬ Closed .operand text) :
    ∃ front, emit receiver = .ok front ∧ ¬ Closed .operand front := by
  obtain ⟨front, rest, made, rfl, closedRest⟩ := emit_receiver inert receives emitted
  exact ⟨front, made, fun closed => opened (closed.concat closedRest)⟩

/-- Semicolons outside of all brackets come from a part that stands there. -/
theorem open_cases {node : Node} (inert : node.IsInert) {text : String}
    (emitted : emit node = .ok text) (opened : ¬ Closed .operand text) :
    (∃ name value, node = .definition name value) ∨
      (∃ operator operand, node = .arithmetic operator [operand]) ∨
      ∃ receiver, Receives node receiver := by
  cases node with
  | definition name value => exact .inl ⟨name, value, rfl⟩
  | classInstantiation constructor args => exact .inr (.inr ⟨constructor, .construct⟩)
  | methodResolution object method args => exact .inr (.inr ⟨object, .method⟩)
  | propertyResolution object property => exact .inr (.inr ⟨object, .property⟩)
  | arithmetic operator args =>
    rcases args with _ | ⟨operand, _ | ⟨second, others⟩⟩
    · cases emitted
      cases operator <;> exact absurd (.spelled rfl rfl) opened
    · exact .inr (.inl ⟨operator, operand, rfl⟩)
    · obtain ⟨texts, made, rfl⟩ := emit_chain emitted
      have each := emitAll_closed _ inert made
      exact absurd (bracketed_closed (.intercalate (arithmeticToken_closed .free operator) each))
        opened
  | application invocable args tail =>
    obtain ⟨-, inertArgs⟩ := List.forall_mem_append.mp inert
    rw [emit, ensureSupported_bind rfl] at emitted
    obtain ⟨texts, made, emitted⟩ := ok_of_bind emitted
    split at emitted
    · next inlined =>
      cases emitted
      unfold inlined? at inlined
      split at inlined
      · have each := emitAll_closed args inertArgs made
        rcases primitive_cases each inlined with ⟨rfl, _, _, rfl, -⟩ | closed
        · have length := length_of_emitAll made
          rcases args with _ | ⟨array, _ | ⟨index, _ | _⟩⟩
          case cons.cons.nil => exact .inr (.inr ⟨array, .element⟩)
          all_goals simp at length
        · exact absurd closed opened
      · cases inlined
    · next written =>
      refine .inr (.inr ⟨invocable, .call fun others madeToo => ?_⟩)
      cases made.symm.trans madeToo
      exact written
  | _ => exact absurd (emitted_closed _ inert emitted) opened

theorem splits_of_not_closed (node : Node) (inert : node.IsInert) {text : String}
    (emitted : emit node = .ok text) (opened : ¬ Closed .operand text) : Splits node := by
  rcases open_cases inert emitted opened with
    ⟨name, value, rfl⟩ | ⟨operator, operand, rfl⟩ | ⟨receiver, receives⟩
  · obtain ⟨inertName, inertValue⟩ := List.forall_mem_cons.mp inert
    rw [emit, ensureSupported_bind rfl] at emitted
    obtain ⟨valueText, made, emitted⟩ := ok_of_bind emitted
    cases emitted
    by_cases qualified : name.qualifier = none
    · refine .value (splits_of_not_closed value inertValue made fun closed => opened ?_)
      rw [definitionText, Variable.segments_eq_nil_iff.mpr qualified]
      exact .append (.append inertName.base_inert.closed (.spelled rfl rfl)) closed
    · exact .namespaced qualified
  · have inertOperand : operand.IsInert :=
      inert_operand inert List.mem_cons_self
    obtain ⟨t, made, rfl⟩ := emit_single_iff.mp emitted
    have token : Closed .operand (arithmeticToken operator) := arithmeticToken_closed _ operator
    cases sign : operator.sign? with
    | some c =>
      rw [sign, Option.isSome_some, if_pos rfl, prefixed_eq] at opened
      cases signed : isSigned t with
      | true =>
        have closed := (emitted_closed operand inertOperand made).free
        refine absurd ?_ opened
        rw [signed, if_pos rfl]
        exact .append (.append (.append token (.spelled rfl rfl)) (closed.inside _ _))
          (.spelled rfl rfl)
      | false =>
        rw [signed, if_neg Bool.false_ne_true] at opened
        exact .signed made signed (splits_of_not_closed operand inertOperand made
          fun closed => opened (token.concat closed))
    | none =>
      rw [sign] at opened
      exact .only sign (splits_of_not_closed operand inertOperand made opened)
  · -- which part the receiver is depends on the node, so the recursion goes by size
    have smaller := receives.sizeOf_lt
    obtain ⟨front, made, openedFront⟩ := not_closed_receiver inert receives emitted opened
    exact .behind receives (splits_of_not_closed receiver (receives.inert inert) made openedFront)
termination_by sizeOf node

/-- In Ruby, the text of every operand is spliced into the text of the node as it is. It is empty
exactly if the operand is a macro definition, and it has a semicolon outside of all brackets exactly
if the operand is a definition in a namespace or holds one without brackets. -/
theorem operand_single_iff {node : Node} (inert : node.IsInert) {text : String}
    (emitted : emit node = .ok text) : ∀ operand ∈ operands node, ∃ t, emit operand = .ok t ∧
      Spliced t text ∧ (t = "" ↔ Blank operand) ∧ (¬ NoOuterSemicolon t ↔ Splits operand) := by
  intro operand member
  obtain ⟨t, made, spliced⟩ := spliced_operand emitted operand member
  have inertOperand : operand.IsInert := inert_operand inert member
  refine ⟨t, made, spliced, ⟨?_, ?_⟩, ?_⟩
  · rintro rfl
    exact blank_of_empty operand inertOperand made
  · intro blank
    exact Except.ok.inj (made.symm.trans (emit_blank blank))
  · rw [(emitted_closed operand inertOperand made).free.noOuterSemicolon_iff]
    exact ⟨splits_of_not_closed operand inertOperand made,
      fun splits => not_closed_of_splits splits inertOperand made⟩

/-- Defining `b` in the namespace `a`. -/
def namespacedDefinition : Node :=
  .definition ⟨some "a", "b"⟩ (.integer ⟨0, 1⟩)

/-- The text of a definition with a sign before it, and of a macro definition. -/
def signedDefinitionAndMacro : Node :=
  .application (.reference ⟨none, "str"⟩)
    [.arithmetic .subtract [namespacedDefinition],
      .arithmetic .multiply [.macroDefinition ⟨none, "m"⟩ (.single (.mk ⟨[], none⟩ []))]] true

theorem operand_single_iff_signed : signedDefinitionAndMacro.IsInert ∧
    (∃ text, emit signedDefinitionAndMacro = .ok text) ∧
    ∃ t, emit (.arithmetic .subtract [namespacedDefinition]) = .ok t ∧ ¬ NoOuterSemicolon t := by
  have inert : signedDefinitionAndMacro.IsInert := by decide
  have emitted : emit signedDefinitionAndMacro =
      .ok "[-module A; end; A.singleton_class.attr_accessor(:b); A.b = 1, ].join" := by rfl
  obtain ⟨t, made, -, -, splits⟩ := operand_single_iff inert emitted _ List.mem_cons_self
  have operand : emit namespacedDefinition =
      .ok "module A; end; A.singleton_class.attr_accessor(:b); A.b = 1" := by rfl
  exact ⟨inert, ⟨_, emitted⟩, t, made,
    splits.mpr (.signed operand rfl (.namespaced (Option.some_ne_none _)))⟩

/-- A call with a definition in a namespace as its argument. -/
def callWithDefinition : Node :=
  .application (.reference ⟨none, "f"⟩) [namespacedDefinition] true

/-- The argument is written as several statements. -/
theorem callWithDefinition_splits :
    callWithDefinition.IsInert ∧ namespacedDefinition ∈ operands callWithDefinition ∧
      emit callWithDefinition =
        .ok "f[module A; end; A.singleton_class.attr_accessor(:b); A.b = 1]" ∧
      emit namespacedDefinition =
        .ok "module A; end; A.singleton_class.attr_accessor(:b); A.b = 1" ∧
      ¬ NoOuterSemicolon "module A; end; A.singleton_class.attr_accessor(:b); A.b = 1" := by
  refine ⟨by decide, List.mem_cons_self, rfl, rfl, fun inside => ?_⟩
  exact inside "module A".toList _ rfl rfl

end ScriptLisp.Ruby
