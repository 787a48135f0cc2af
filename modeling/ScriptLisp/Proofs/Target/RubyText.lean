import ScriptLisp.Proofs.Target.Operand
import ScriptLisp.Target.Ruby

/-!
The shape of Ruby text. Every construct that has a text is closed when its parts are; semicolons
and, in literals and names, line breaks may stand anywhere. Most constructs keep the semicolons of
their parts in brackets of their own, which the lemmas about them say by leaving open whether
semicolons are admitted outside.

* `emitted_closed`: when an inert node has a text, the text is closed.
-/

namespace ScriptLisp.Ruby

open Delimiters Target

/-! ### Results of generation -/

/-- A text made of the result of another step comes from that result. -/
theorem ok_of_bind {ε α β : Type} {x : Except ε α} {f : α → Except ε β} {b : β}
    (made : (x >>= f) = .ok b) : ∃ a, x = .ok a ∧ f a = .ok b := by
  cases x with
  | error _ => cases made
  | ok a => exact ⟨a, rfl, made⟩

/-- The results of a step on every member of a list come from its members. -/
theorem ok_of_mapM {ε α β : Type} {f : α → Except ε β} {as : List α} {bs : List β}
    (made : as.mapM f = .ok bs) : ∀ b ∈ bs, ∃ a ∈ as, f a = .ok b := by
  induction as generalizing bs with
  | nil => cases made; simp
  | cons a as ih =>
    rw [List.mapM_cons] at made
    obtain ⟨b, first, made⟩ := ok_of_bind made
    obtain ⟨others, rest, made⟩ := ok_of_bind made
    cases made
    refine List.forall_mem_cons.mpr ⟨⟨a, List.mem_cons_self, first⟩, fun c mem => ?_⟩
    obtain ⟨source, listed, result⟩ := ih rest c mem
    exact ⟨source, List.mem_cons_of_mem _ listed, result⟩

/-- If there is a result, it has some property. -/
def Yields {α : Type} (post : α → Prop) (result : Except Failure α) : Prop :=
  ∀ ⦃a⦄, result = .ok a → post a

namespace Yields

variable {α β : Type} {post : α → Prop} {next : β → Prop}

theorem pure {a : α} (holds : post a) : Yields post (Pure.pure a) := by
  rintro _ ⟨⟩
  exact holds

theorem failed (failure : Failure) : Yields post (throw failure : Except Failure α) :=
  nofun

theorem bind {x : Except Failure α} {f : α → Except Failure β} (starts : Yields post x)
    (goesOn : ∀ a, post a → Yields next (f a)) : Yields next (x >>= f) := by
  intro b made
  obtain ⟨a, first, second⟩ := ok_of_bind made
  exact goesOn a (starts first) second

/-- A text that is made of another one. -/
theorem returning {x : Except Failure α} {f : α → β} (starts : Yields post x)
    (holds : ∀ a, post a → next (f a)) : Yields next (do return f (← x)) :=
  starts.bind fun a given => pure (holds a given)

theorem map {x : Except Failure α} {f : α → β} (starts : Yields post x)
    (holds : ∀ a, post a → next (f a)) : Yields next (x.map f) := by
  intro b made
  cases x with
  | error _ => cases made
  | ok a =>
    cases made
    exact holds a (starts rfl)

/-- A check says nothing about a text. -/
theorem checked {target : Target} {kind : NodeKind} {x : Except Failure α}
    (yields : Yields post x) : Yields post (do target.ensureSupported kind; x) := by
  intro a made
  obtain ⟨-, -, made⟩ := ok_of_bind made
  exact yields made

/-- The texts of clauses in another order are the same texts. -/
theorem inTrialOrder {clauses : List (Params × Except Failure String)}
    (holds : Params → String → Prop)
    (each : ∀ clause ∈ clauses, Yields (holds clause.1) clause.2) :
    Yields (fun texts => ∀ clause ∈ texts, holds clause.1 clause.2)
      (Target.inTrialOrder clauses) := by
  intro texts made clause member
  obtain ⟨⟨params, text⟩, listed, result⟩ := ok_of_mapM made clause member
  cases text with
  | error _ => cases result
  | ok text =>
    cases result
    exact each _ (mem_fixedFirst.mp listed) rfl

end Yields

/-! ### Vocabulary -/

section Vocabulary

variable {semicolons : Bool}

/-- A character of a literal leaves the scan in the literal. -/
theorem scan_quotedChar (c : Char) :
    scan ⟨true, semicolons⟩ (.literal '\'' []) (quotedChar c) = some (.literal '\'' []) := by
  unfold quotedChar
  split
  · rfl
  · rfl
  · next backslash quote =>
    have admitted : Rules.admits ⟨true, semicolons⟩ (.literal '\'' []) c = true := by
      simp [Rules.admits]
    have step : (Place.literal '\'' []).step c = some (.literal '\'' []) := by
      rw [Place.step, if_neg backslash, if_neg quote]
    rw [scan_cons_of_step admitted step, scan_nil]

/-- A string literal is closed, whatever the string. -/
theorem quoted_closed (text : String) : Closed ⟨true, semicolons⟩ (quoted text) :=
  .singleQuoted _ scan_quotedChar

/-- Every operator has a token or a method. -/
theorem binaryText_closed {left right : String} (operator : BinaryOperator)
    (closedLeft : Closed .free left) (closedRight : Closed .free right) :
    ∃ text, binaryText? operator left right = some text ∧ Closed ⟨true, semicolons⟩ text := by
  have between : ∀ token, Closed .free token →
      Closed ⟨true, semicolons⟩ ("(" ++ left ++ token ++ right ++ ")") :=
    fun token closed => .append (.append (.append (.spelledThen rfl rfl (closedLeft.inside _ _))
      (closed.inside _ _)) (closedRight.inside _ _)) (.spelled rfl rfl)
  have method : ∀ name, Closed .free name →
      Closed ⟨true, semicolons⟩ ("(" ++ left ++ "." ++ name ++ "(" ++ right ++ "))") :=
    fun name closed => .append (.append (.append (.append (.append (.spelledThen rfl rfl
      (closedLeft.inside _ _)) (.spelled rfl rfl)) (closed.inside _ _)) (.spelled rfl rfl))
      (closedRight.inside _ _)) (.spelled rfl rfl)
  cases operator with
  | identical => exact ⟨_, rfl, method _ (.spelled rfl rfl)⟩
  | instanceOf => exact ⟨_, rfl, method _ (.spelled rfl rfl)⟩
  | _ => exact ⟨_, rfl, between _ (.spelled rfl rfl)⟩

/-- An element of an array is written behind the array; every other inlined call of closed arguments
is in brackets. -/
theorem primitive_cases {name text : String} {args : List String}
    (each : ∀ t ∈ args, Closed .free t) (inlined : primitive? name args = some text) :
    (name = "aget" ∧ ∃ array index, args = [array, index] ∧
      text = array ++ "[" ++ index ++ "]") ∨ Closed ⟨true, semicolons⟩ text := by
  have listed : Closed .free (commas args) := commas_closed each
  unfold primitive? at inlined
  split at inlined
  · next array index =>
    cases inlined
    exact .inl ⟨rfl, array, index, rfl, rfl⟩
  all_goals right
  · next array index value =>
    cases inlined
    simp only [List.forall_mem_cons] at each
    obtain ⟨array, index, value, -⟩ := each
    refine .append (.append (.append (.append (.append (.append (.spelled rfl rfl)
      (array.inside _ _)) (.spelled rfl rfl)) (index.inside _ _)) (.spelled rfl rfl))
      (value.inside _ _)) (.spelled rfl rfl)
  · cases inlined
    exact .append (.spelledThen rfl rfl (listed.inside _ _)) (.spelled rfl rfl)
  · cases inlined
    exact .append (.spelledThen rfl rfl (listed.inside _ _)) (.spelled rfl rfl)
  · cases inlined
    exact .append (.spelledThen rfl rfl (listed.inside _ _)) (.spelled rfl rfl)
  · cases inlined

/-- What is written behind an array or a callee: closed texts in square brackets. -/
theorem indexed_closed {text : String} (closed : Closed .free text) :
    Closed ⟨true, semicolons⟩ ("[" ++ text ++ "]") :=
  .append (.spelledThen rfl rfl (closed.inside _ _)) (.spelled rfl rfl)

/-- The inlined text of a call with closed arguments. -/
theorem inlined_closed {invocable : Node} {text : String} {args : List String}
    (each : ∀ t ∈ args, Closed .free t) (inlined : inlined? invocable args = some text) :
    Closed .free text := by
  unfold inlined? at inlined
  split at inlined
  · rcases primitive_cases each inlined with ⟨-, array, index, rfl, rfl⟩ | closed
    · simp only [List.forall_mem_cons] at each
      obtain ⟨array, index, -⟩ := each
      exact .append (.append (.append array (.spelled rfl rfl)) (index.moves _)) (.spelled rfl rfl)
    · exact closed
  · cases inlined

/-- The name of a module is as inert as the step of a qualifier it stands for. -/
theorem constantName_inert {segment : String} (inert : Inert segment) :
    Inert (constantName segment) := by
  unfold constantName
  split
  · decide
  · next first rest spelling =>
    refine .ofList fun c mem => ?_
    have inert : ∀ c ∈ first :: rest, isInert c = true := spelling ▸ inert
    rcases List.mem_append.mp mem with mem | mem
    · exact isInert_of_mem_upper (inert first List.mem_cons_self) mem
    · exact inert c (List.mem_cons_of_mem _ mem)

theorem modulePath_closed {segments : List String} (inert : ∀ s ∈ segments, Inert s) :
    Closed ⟨true, semicolons⟩ (modulePath segments) := by
  refine .intercalate (.spelled rfl rfl) fun t mem => ?_
  obtain ⟨segment, listed, rfl⟩ := List.mem_map.mp mem
  exact (constantName_inert (inert segment listed)).closed

theorem variableText_closed {v : Variable} (inert : v.IsInert) :
    Closed ⟨true, semicolons⟩ (variableText v) := by
  have segments := inert.segments_inert
  unfold variableText
  split
  · exact inert.base_inert.closed
  · exact .append (.append (modulePath_closed segments) (.spelled rfl rfl))
      inert.base_inert.closed

/-- What is dropped at the end of a name is a mark. -/
theorem mem_withoutMark {name : List Char} {c : Char} (mem : c ∈ name) :
    c ∈ withoutMark name ∨ c = '?' ∨ c = '!' := by
  have ending : ∀ mark, name.getLast? = some mark → c ∈ name.dropLast ∨ c = mark := by
    intro mark last
    obtain ⟨start, rfl⟩ := List.getLast?_eq_some_iff.mp last
    rw [List.dropLast_concat]
    rcases List.mem_append.mp mem with mem | mem
    · exact .inl mem
    · exact .inr (List.mem_singleton.mp mem)
  unfold withoutMark
  split
  · next last => exact (ending _ last).imp_right .inl
  · next last => exact (ending _ last).imp_right .inr
  · exact .inl mem

/-- Names that need no quotes are made of letters, digits and underscores, and perhaps a mark at
the end. -/
theorem mem_of_isPlainSymbol {name : String} (symbol : isPlainSymbol name = true) {c : Char}
    (mem : c ∈ name.toList) : (c.isAlphanum || c == '_') = true ∨ c = '?' ∨ c = '!' := by
  refine (mem_withoutMark mem).imp_left fun mem => ?_
  unfold isPlainSymbol at symbol
  split at symbol
  · next first rest shown =>
    rw [shown] at mem
    obtain ⟨start, others⟩ := Bool.and_eq_true_iff.mp symbol
    rcases List.mem_cons.mp mem with rfl | mem
    · rcases Bool.or_eq_true_iff.mp start with letter | underscore
      · simp [Char.isAlphanum, letter]
      · simp [underscore]
    · exact List.all_eq_true.mp others c mem
  · cases symbol

theorem plain_of_isPlainSymbol {name : String} (symbol : isPlainSymbol name = true) :
    Plain name := by
  intro c mem
  rcases mem_of_isPlainSymbol symbol mem with inner | rfl | rfl
  · exact isPlain_of_class (fun d => d.isAlphanum || d == '_') (by decide) inner
  · rfl
  · rfl

theorem keywordText_closed (name : Name) : Closed ⟨true, semicolons⟩ (keywordText name) := by
  unfold keywordText
  split
  · next plain =>
    exact .spelledThen rfl rfl (plain_of_isPlainSymbol (Bool.and_eq_true_iff.mp plain).2).closed
  · exact .spelledThen rfl rfl (quoted_closed _)

theorem symbolText_closed (name : Name) : Closed ⟨true, semicolons⟩ (symbolText name) := by
  unfold symbolText
  split
  · exact .append (.append (.append (.spelledThen rfl rfl ((quoted_closed _).moves _))
      (.spelled rfl rfl)) ((quoted_closed _).moves _)) (.spelled rfl rfl)
  · exact .append (.spelledThen rfl rfl ((quoted_closed _).moves _)) (.spelled rfl rfl)

/-! ### Constructs -/

theorem mem_of_mem_beginnings {α : Type} {list start : List α} {a : α}
    (listed : start ∈ beginnings list) (mem : a ∈ start) : a ∈ list := by
  induction list generalizing start with
  | nil => cases listed
  | cons first rest ih =>
    rw [beginnings] at listed
    rcases List.mem_cons.mp listed with rfl | listed
    · exact List.mem_singleton.mp mem ▸ List.mem_cons_self
    · obtain ⟨shorter, inRest, rfl⟩ := List.mem_map.mp listed
      rcases List.mem_cons.mp mem with rfl | mem
      · exact List.mem_cons_self
      · exact List.mem_cons_of_mem _ (ih inRest mem)

theorem definitionText_closed {name : Variable} {value : String} (inert : name.IsInert)
    (closed : Closed .free value) : Closed .free (definitionText name value) := by
  have segments := inert.segments_inert
  have base : ∀ pending, Moves .free (.code pending) name.base (.code pending) :=
    inert.base_inert.closed.moves
  have target : Closed .free (modulePath name.segments) := modulePath_closed segments
  unfold definitionText
  split
  · exact .append (.append (base _) (.spelled rfl rfl)) closed
  · refine .intercalate (.spelled rfl rfl) (List.forall_mem_append.mpr ⟨fun t mem => ?_, ?_⟩)
    · obtain ⟨path, listed, rfl⟩ := List.mem_map.mp mem
      have opened : Closed .free (modulePath path) :=
        modulePath_closed fun segment inPath => segments _ (mem_of_mem_beginnings listed inPath)
      exact .append (.spelledThen rfl rfl opened) (.spelled rfl rfl)
    · simp only [List.forall_mem_cons]
      refine ⟨?_, ?_, by simp⟩
      · exact .append (.append (.append target (.spelled rfl rfl)) (base _)) (.spelled rfl rfl)
      · exact .append (.append (.append (.append target (.spelled rfl rfl)) (base _))
          (.spelled rfl rfl)) closed

theorem bodyText_closed {expressions : List String} (each : ∀ t ∈ expressions, Closed .free t) :
    Closed .free (bodyText expressions) := by
  unfold bodyText
  split
  · exact .spelled rfl rfl
  · exact .intercalate (.spelled rfl rfl) fun t mem => each t (List.mem_filter.mp mem).1

theorem conditionalText_closed {branches : List (String × String)} {otherwise : String}
    (each : ∀ branch ∈ branches, Closed .free branch.1 ∧ Closed .free branch.2)
    (closed : Closed .free otherwise) :
    Closed ⟨true, semicolons⟩ (conditionalText branches otherwise) := by
  unfold conditionalText
  split
  · exact bracketed_closed closed
  · refine .append (.append (.append (.spelledThen rfl rfl
      ((.intercalate (.spelled rfl rfl) ?tested : Closed .free _).inside _ _))
      (.spelled rfl rfl)) (closed.inside _ _)) (.spelled rfl rfl)
    intro t mem
    obtain ⟨⟨test, consequent⟩, listed, rfl⟩ := List.mem_map.mp mem
    obtain ⟨closedTest, closedConsequent⟩ := each _ listed
    exact .append (.append closedTest (.spelled rfl rfl)) closedConsequent

theorem functionText_closed {params : Params} {body : String} (inert : params.IsInert)
    (closed : Closed .free body) : Closed ⟨true, semicolons⟩ (functionText params body) := by
  simp only [functionText]
  split
  · exact .spelledThen rfl rfl (braced_moves (closed.inside _ _))
  · refine .spelledThen rfl rfl (braced_moves (.append (.append (.spelledThen rfl rfl
      ((commas_closed (List.forall_mem_append.mpr ⟨fun t mem => ?_, ?_⟩)).moves _))
      (.spelled rfl rfl)) (closed.inside _ _)))
    · obtain ⟨v, fixed, rfl⟩ := List.mem_map.mp mem
      exact (inert.base_inert_of_fixed v fixed).closed
    · split
      · next rest variadic =>
        exact List.forall_mem_singleton.mpr
          (.spelledThen rfl rfl (inert.base_inert_of_rest variadic).closed)
      · simp

theorem clauseTest_closed (params : Params) : Closed .free (clauseTest params) := by
  have comparison : Closed .free (if params.isVariadic then ">= " else "== ") := by
    split <;> exact .spelled rfl rfl
  exact .append (.append (.append (.spelled rfl rfl) (.spelled rfl rfl)) comparison)
    (plain_toString params.required).closed

theorem dispatchText_closed {clauses : List (Params × String)}
    (each : ∀ clause ∈ clauses, clause.1.IsInert ∧ Closed .free clause.2) :
    Closed ⟨true, semicolons⟩ (dispatchText clauses) := by
  refine .spelledThen rfl rfl (braced_moves ?_)
  refine .append (.append (.append (.append (.append (.spelledThen rfl rfl (.spelled rfl rfl))
    (.spelled rfl rfl))
    ((.intercalate (.spelled rfl rfl) ?tried : Closed .free _).inside _ _)) (.spelled rfl rfl))
    (.spelled rfl rfl)) (.spelled rfl rfl)
  intro t mem
  obtain ⟨⟨params, body⟩, listed, rfl⟩ := List.mem_map.mp mem
  obtain ⟨inert, closed⟩ := each _ listed
  exact .append (.append (.append (.append (.append (clauseTest_closed params) (.spelled rfl rfl))
    (functionText_closed inert closed)) (.spelled rfl rfl)) (.spelled rfl rfl)) (.spelled rfl rfl)

theorem boolean_closed (b : Bool) : Closed ⟨true, semicolons⟩ (if b then "true" else "false") := by
  split <;> exact .spelled rfl rfl

theorem rational_closed (n d : Int64) :
    Closed ⟨true, semicolons⟩ ("Rational(" ++ Integer.text n ++ ", " ++ Integer.text d ++ ")") :=
  .append (.append (.append (.spelledThen rfl rfl ((plain_integer n).closed.moves _))
    (.spelled rfl rfl)) ((plain_integer d).closed.moves _)) (.spelled rfl rfl)

theorem vector_closed {texts : List String} (each : ∀ t ∈ texts, Closed .free t) :
    Closed ⟨true, semicolons⟩ ("WS::Vector[" ++ commas texts ++ "]") :=
  .append (.spelledThen rfl rfl ((commas_closed each).inside _ _)) (.spelled rfl rfl)

theorem list_closed {texts : List String} (each : ∀ t ∈ texts, Closed .free t) :
    Closed ⟨true, semicolons⟩ ("WS::List[" ++ commas texts ++ "]") :=
  .append (.spelledThen rfl rfl ((commas_closed each).inside _ _)) (.spelled rfl rfl)

theorem set_closed {texts : List String} (each : ∀ t ∈ texts, Closed .free t) :
    Closed ⟨true, semicolons⟩ ("WS::Set[" ++ commas texts ++ "]") :=
  .append (.spelledThen rfl rfl ((commas_closed each).inside _ _)) (.spelled rfl rfl)

theorem map_closed {texts : List String} (each : ∀ t ∈ texts, Closed .free t) :
    Closed ⟨true, semicolons⟩ ("WS::Map[" ++ commas texts ++ "]") :=
  .append (.spelledThen rfl rfl ((commas_closed each).inside _ _)) (.spelled rfl rfl)

theorem entry_closed {key value : String} (closedKey : Closed .free key)
    (closedValue : Closed .free value) : Closed .free (key ++ " => " ++ value) :=
  .append (.append closedKey (.spelled rfl rfl)) closedValue

theorem raise_closed {text : String} (closed : Closed .free text) :
    Closed ⟨true, semicolons⟩ ("raise(" ++ text ++ ")") :=
  .append (.spelledThen rfl rfl (closed.inside _ _)) (.spelled rfl rfl)

theorem instantiation_closed {constructor : String} {args : List String}
    (closed : Closed .free constructor) (each : ∀ t ∈ args, Closed .free t) :
    Closed .free (constructor ++ ".new(" ++ commas args ++ ")") :=
  .append (.append (.append closed (.spelled rfl rfl)) ((commas_closed each).moves _))
    (.spelled rfl rfl)

theorem methodCall_closed {object : String} {method : Variable} {args : List String}
    (closed : Closed .free object) (inert : method.IsInert) (each : ∀ t ∈ args, Closed .free t) :
    Closed .free (object ++ "." ++ method.base ++ "(" ++ commas args ++ ")") :=
  .append (.append (.append (.append (.append closed (.spelled rfl rfl)) inert.base_inert.closed)
    (.spelled rfl rfl)) ((commas_closed each).moves _)) (.spelled rfl rfl)

theorem property_closed {object : String} {property : Variable} (closed : Closed .free object)
    (inert : property.IsInert) : Closed .free (object ++ "." ++ property.base) :=
  .append (.append closed (.spelled rfl rfl)) inert.base_inert.closed

theorem assignment_closed {target value : String} (closedTarget : Closed .free target)
    (closedValue : Closed .free value) :
    Closed ⟨true, semicolons⟩ ("(" ++ target ++ " = " ++ value ++ ")") :=
  .append (.append (.append (.spelledThen rfl rfl (closedTarget.inside _ _)) (.spelled rfl rfl))
    (closedValue.inside _ _)) (.spelled rfl rfl)

theorem callText_closed {callee : String} {args : List String} (closed : Closed .free callee)
    (each : ∀ t ∈ args, Closed .free t) : Closed .free (callText callee args) :=
  .append (.append (.append closed (.spelled rfl rfl)) ((commas_closed each).moves _))
    (.spelled rfl rfl)

theorem unary_closed (operator : UnaryOperator) {operand : String}
    (closed : Closed .free operand) :
    Closed ⟨true, semicolons⟩ ("(" ++ unaryToken operator ++ operand ++ ")") :=
  .append (.append (.spelledThen rfl rfl ((unaryToken_closed _ operator).moves _))
    (closed.inside _ _)) (.spelled rfl rfl)

end Vocabulary

/-! ### Nodes -/

/-- Whether a part of a node may stand outside of all brackets of its text. -/
def isOpen : Node → Bool
  | .definition _ _ | .classInstantiation _ _ | .methodResolution _ _ _ | .propertyResolution _ _
  | .application _ _ _ | .arithmetic _ _ => true
  | _ => false

-- Each construct is closed by its lemma; the walk only hands the inert names to the parts.
mutual

/-- The text of an inert node, if it has one, is closed, and unless the node is open, all of its
semicolons are in brackets. -/
theorem emitted_closed (node : Node) (inert : node.IsInert) :
    Yields (Closed ⟨true, isOpen node⟩) (emit node) := by
  rw [emit.eq_def]
  refine .checked ?_
  match node with
  | .nil _ => exact .pure (.spelled rfl rfl)
  | .boolean b => exact .pure (boolean_closed b.value)
  | .integer i => exact .pure (integerText_closed _ i.value)
  | .rational n d => exact .pure (rational_closed n d)
  | .decimal d => exact .pure (decimalText_closed _ d)
  | .string s => exact .pure (quoted_closed s.value)
  | .keyword k => exact .pure (keywordText_closed k.value)
  | .symbol s => exact .pure (symbolText_closed s.value)
  | .vector es => exact (emitAll_closed es inert).returning fun _ => vector_closed
  | .list es => exact (emitAll_closed es inert).returning fun _ => list_closed
  | .set es => exact (emitAll_closed es inert).returning fun _ => set_closed
  | .map es => exact (emitEntries_closed es inert).returning fun _ => map_closed
  | .reference v => exact .pure (variableText_closed (inert v List.mem_cons_self))
  | .definition name value =>
    obtain ⟨inertName, inertValue⟩ := List.forall_mem_cons.mp inert
    exact (emitted_closed value inertValue).returning fun _ closed =>
      definitionText_closed inertName closed.free
  | .conditional branches otherwise =>
    obtain ⟨inertBranches, inertOtherwise⟩ := List.forall_mem_append.mp inert
    refine (emitted_closed otherwise inertOtherwise).bind fun _ closed => ?_
    exact (emitBranches_closed branches inertBranches).returning fun _ each =>
      conditionalText_closed each closed.free
  | .lambda function => exact emitLambda_closed function inert
  | .block body =>
    exact (emitAll_closed body inert).returning fun _ each =>
      bracketed_closed (bodyText_closed each)
  | .exception expression =>
    exact (emitted_closed expression inert).returning fun _ closed => raise_closed closed.free
  | .classInstantiation constructor args =>
    obtain ⟨inertConstructor, inertArgs⟩ := List.forall_mem_append.mp inert
    refine (emitted_closed constructor inertConstructor).bind fun _ closed => ?_
    exact (emitAll_closed args inertArgs).returning fun _ => instantiation_closed closed.free
  | .methodResolution object method args =>
    obtain ⟨inertNames, inertArgs⟩ := List.forall_mem_append.mp inert
    obtain ⟨inertMethod, inertObject⟩ := List.forall_mem_cons.mp inertNames
    refine (emitted_closed object inertObject).bind fun _ closed => ?_
    exact (emitAll_closed args inertArgs).returning fun _ =>
      methodCall_closed closed.free inertMethod
  | .propertyResolution object property =>
    obtain ⟨inertProperty, inertObject⟩ := List.forall_mem_cons.mp inert
    exact (emitted_closed object inertObject).returning fun _ closed =>
      property_closed closed.free inertProperty
  | .assignment target value =>
    obtain ⟨inertTarget, inertValue⟩ := List.forall_mem_append.mp inert
    refine (emitted_closed target inertTarget).bind fun _ closedTarget => ?_
    exact (emitted_closed value inertValue).returning fun _ closedValue =>
      assignment_closed closedTarget.free closedValue.free
  | .application invocable args _ =>
    obtain ⟨inertInvocable, inertArgs⟩ := List.forall_mem_append.mp inert
    refine (emitAll_closed args inertArgs).bind fun texts each => ?_
    split
    · next inlined => exact .pure (inlined_closed each inlined)
    · exact (emitted_closed invocable inertInvocable).returning fun _ closed =>
        callText_closed closed.free each
  | .binary operator left right =>
    obtain ⟨inertLeft, inertRight⟩ := List.forall_mem_append.mp inert
    refine (emitted_closed left inertLeft).bind fun _ closedLeft => ?_
    refine (emitted_closed right inertRight).bind fun _ closedRight => ?_
    obtain ⟨text, written, closed⟩ := binaryText_closed operator closedLeft.free closedRight.free
    rw [written]
    exact .pure closed
  | .unary operator operand =>
    exact (emitted_closed operand inert).returning fun _ closed =>
      unary_closed operator closed.free
  | .arithmetic operator args =>
    exact (emitAll_closed args inert).returning fun _ =>
      arithmeticText_closed operator (arithmeticToken_closed _ operator)
  | .macroDefinition _ _ => exact .pure .empty
  | .loop _ _ | .recursionPoint _ | .exceptionHandler _ _ _ | .typeDefinition _ _ _ _
  | .protocolDefinition _ _ _ => exact .failed _

/-- The texts of inert nodes. -/
theorem emitAll_closed (nodes : List Node) (inert : ∀ v ∈ Node.namesOfAll nodes, v.IsInert) :
    Yields (fun texts => ∀ t ∈ texts, Closed .free t) (emitAll nodes) := by
  match nodes with
  | [] => exact .pure (List.forall_mem_nil _)
  | node :: rest =>
    obtain ⟨inertNode, inertRest⟩ := List.forall_mem_append.mp inert
    rw [emitAll]
    refine (emitted_closed node inertNode).bind fun _ closed => ?_
    exact (emitAll_closed rest inertRest).returning fun _ others =>
      List.forall_mem_cons.mpr ⟨closed.free, others⟩

theorem emitEntries_closed (entries : List (Node × Node))
    (inert : ∀ v ∈ Node.namesOfEntries entries, v.IsInert) :
    Yields (fun texts => ∀ t ∈ texts, Closed .free t) (emitEntries entries) := by
  match entries with
  | [] => exact .pure (List.forall_mem_nil _)
  | (key, value) :: rest =>
    obtain ⟨inertEntry, inertRest⟩ := List.forall_mem_append.mp inert
    obtain ⟨inertKey, inertValue⟩ := List.forall_mem_append.mp inertEntry
    rw [emitEntries]
    refine (emitted_closed key inertKey).bind fun _ closedKey => ?_
    refine (emitted_closed value inertValue).bind fun _ closedValue => ?_
    exact (emitEntries_closed rest inertRest).returning fun _ others =>
      List.forall_mem_cons.mpr ⟨entry_closed closedKey.free closedValue.free, others⟩

theorem emitBranches_closed (branches : List (Node × Node))
    (inert : ∀ v ∈ Node.namesOfEntries branches, v.IsInert) :
    Yields (fun texts => ∀ branch ∈ texts, Closed .free branch.1 ∧ Closed .free branch.2)
      (emitBranches branches) := by
  match branches with
  | [] => exact .pure (List.forall_mem_nil _)
  | (test, consequent) :: rest =>
    obtain ⟨inertBranch, inertRest⟩ := List.forall_mem_append.mp inert
    obtain ⟨inertTest, inertConsequent⟩ := List.forall_mem_append.mp inertBranch
    rw [emitBranches]
    refine (emitted_closed test inertTest).bind fun _ closedTest => ?_
    refine (emitted_closed consequent inertConsequent).bind fun _ closedConsequent => ?_
    exact (emitBranches_closed rest inertRest).returning fun _ others =>
      List.forall_mem_cons.mpr ⟨⟨closedTest.free, closedConsequent.free⟩, others⟩

/-- The text of an inert function, if it has one. -/
theorem emitLambda_closed (function : Lambda)
    (inert : ∀ v ∈ Node.namesOfLambda function, v.IsInert) :
    Yields (Closed .operand) (emitLambda function) := by
  match function with
  | .single (.mk params body) =>
    obtain ⟨inertParams, inertBody⟩ := List.forall_mem_append.mp inert
    rw [emitLambda]
    exact (emitAll_closed body inertBody).returning fun _ each =>
      functionText_closed inertParams (bodyText_closed each)
  | .multi clauses =>
    rw [emitLambda]
    have each := Yields.inTrialOrder (fun params body => params.IsInert ∧ Closed .free body)
      (emitClauses_closed clauses inert)
    exact each.returning fun _ => dispatchText_closed

theorem emitClauses_closed (clauses : List Clause)
    (inert : ∀ v ∈ Node.namesOfClauses clauses, v.IsInert) :
    ∀ clause ∈ emitClauses clauses,
      Yields (fun body => clause.1.IsInert ∧ Closed .free body) clause.2 := by
  match clauses with
  | [] => exact List.forall_mem_nil _
  | .mk params body :: rest =>
    obtain ⟨inertClause, inertRest⟩ := List.forall_mem_append.mp inert
    obtain ⟨inertParams, inertBody⟩ := List.forall_mem_append.mp inertClause
    rw [emitClauses]
    refine List.forall_mem_cons.mpr ⟨?_, emitClauses_closed rest inertRest⟩
    exact (emitAll_closed body inertBody).map fun _ each => ⟨inertParams, bodyText_closed each⟩

end

/-- The text of a clean node, if it has one, is closed. -/
theorem emit_closed (node : Node) (clean : node.IsClean) {text : String}
    (emitted : emit node = .ok text) : Closed .free text :=
  (emitted_closed node clean.inert emitted).free

end ScriptLisp.Ruby
