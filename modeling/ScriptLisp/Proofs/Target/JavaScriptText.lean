import ScriptLisp.Proofs.Target.JavaScriptTotal

/-!
The shape of JavaScript text. Every construct is closed when its parts are: what stands for a value
is an expression, which holds no semicolon outside of its brackets, and what stands for a step may
be several statements. Some pieces are open on purpose (`arityComplaint`), and the construct around
them closes them.

* `textOf_closed`: the text of a clean node in any place is closed under the rules of that place.
* `textOf_ne_empty`: a clean node always has a text where a value is needed.
-/

namespace ScriptLisp

open Delimiters

namespace JavaScript

open Target

/-! ### Vocabulary -/

/-- A character of a literal leaves the scan in the literal. -/
theorem scan_quotedChar (rules : Rules) (c : Char) :
    scan rules (.literal '\'' []) (quotedChar c) = some (.literal '\'' []) := by
  unfold quotedChar
  split
  · rfl
  · rfl
  · rfl
  · rfl
  · rfl
  · next backslash quote feed return' _ =>
    have admitted : rules.admits (.literal '\'' []) c = true := by
      simp only [Rules.admits, isLineBreak, beq_false_of_ne feed, beq_false_of_ne return',
        Bool.or_self, Bool.not_false, Bool.true_or, Bool.or_true, Bool.and_self]
    have step : (Place.literal '\'' []).step c = some (.literal '\'' []) := by
      rw [Place.step, if_neg backslash, if_neg quote]
    rw [scan_cons_of_step admitted step, scan_nil]

/-- A string literal is closed, whatever the string. -/
theorem quoted_closed (rules : Rules) (text : String) : Closed rules (quoted text) :=
  .singleQuoted _ (scan_quotedChar rules)

theorem nameText_closed (rules : Rules) (name : Name) : Closed rules (nameText name) := by
  unfold nameText
  split
  · exact ((quoted_closed rules _).concat (.spelled rfl rfl)).concat (quoted_closed rules _)
  · exact quoted_closed rules _

theorem binaryToken_closed (rules : Rules) (operator : BinaryOperator) :
    Closed rules (binaryToken operator) := by
  cases operator <;> exact .spelled rfl rfl

theorem variableText_plain {v : Variable} (clean : v.IsClean) : Plain (variableText v) := by
  unfold variableText
  split
  · next qualifier qualified =>
    exact ((clean.qualifier_plain qualifier qualified).append (by decide)).append clean.base_plain
  · exact clean.base_plain

theorem objectEntries_closed {rules : Rules} {texts : List String}
    (each : ∀ t ∈ texts, Closed rules t) : ∀ t ∈ objectEntries texts, Closed rules t := by
  fun_induction objectEntries texts with
  | case1 key value rest ih =>
    obtain ⟨closedKey, each⟩ := List.forall_mem_cons.mp each
    obtain ⟨closedValue, each⟩ := List.forall_mem_cons.mp each
    refine List.forall_mem_cons.mpr ⟨?_, ih each⟩
    exact .append (.append (.spelledThen rfl rfl (closedKey.moves _)) (.spelled rfl rfl))
      closedValue
  | case2 => simp

/-- The inlined text of a call with closed arguments. -/
theorem primitive_closed {rules : Rules} {name text : String} {args : List String}
    (each : ∀ t ∈ args, Closed rules t) (inlined : primitive? name args = some text) :
    Closed rules text := by
  have listed : Closed rules (commas args) := commas_closed each
  unfold primitive? at inlined
  split at inlined
  · next array index =>
    cases inlined
    simp only [List.forall_mem_cons] at each
    obtain ⟨array, index, -⟩ := each
    exact .append (.append (.append array (.spelled rfl rfl)) (index.moves _)) (.spelled rfl rfl)
  · next array index value =>
    cases inlined
    simp only [List.forall_mem_cons] at each
    obtain ⟨array, index, value, -⟩ := each
    refine .append (.append (.append (.append (.append (.append (.spelled rfl rfl) (array.moves _))
      (.spelled rfl rfl)) (index.moves _)) (.spelled rfl rfl)) (value.moves _)) (.spelled rfl rfl)
  · cases inlined
    exact .append (.spelledThen rfl rfl (listed.moves _)) (.spelled rfl rfl)
  · cases inlined
    exact .append (.spelledThen rfl rfl (listed.moves _)) (.spelled rfl rfl)
  · split at inlined
    · cases inlined
      have entries : Closed rules (commas (objectEntries args)) :=
        commas_closed (objectEntries_closed each)
      exact .append (.spelledThen rfl rfl (entries.moves _)) (.spelled rfl rfl)
    · cases inlined
  · next value =>
    cases inlined
    have value : Closed rules value := each value List.mem_cons_self
    exact .append (.spelledThen rfl rfl (value.moves _)) (.spelled rfl rfl)
  · cases inlined

/-- Only calls of a plain name are inlined, as a primitive one. -/
theorem named_of_inlined {invocable : Node} {args : List String} {text : String}
    (inlined : inlined? invocable args = some text) :
    ∃ name, invocable = .reference ⟨none, name⟩ ∧ primitive? name args = some text := by
  unfold inlined? at inlined
  split at inlined
  · exact ⟨_, rfl, inlined⟩
  · cases inlined

/-- A call of a closed callee with closed arguments, inlined or not. -/
theorem applicationText_closed {rules : Rules} {invocable : Node} {callee : String}
    {args : List String} (closed : Closed rules callee) (each : ∀ t ∈ args, Closed rules t) :
    Closed rules (applicationText invocable callee args) := by
  rw [applicationText]
  cases inlined : inlined? invocable args with
  | some text =>
    obtain ⟨name, -, written⟩ := named_of_inlined inlined
    exact primitive_closed each written
  | none =>
    exact .append (.append (.append closed (.spelled rfl rfl)) ((commas_closed each).moves _))
      (.spelled rfl rfl)

/-! ### Places and statements -/

/-- An expression is a statement as well. -/
theorem statements_of_expression {text : String} (closed : Closed .expression text) :
    Closed .statements text :=
  closed.mono (fun refused => nomatch refused) (fun refused => nomatch refused)

/-- Statements with blanks between them. -/
theorem sequence_closed {texts : List String} (each : ∀ t ∈ texts, Closed .statements t) :
    Closed .statements (" ".intercalate texts) :=
  .intercalate (.spelled rfl rfl) each

/-- Statements in braces, wherever these stand. -/
theorem block_moves {rules : Rules} {text : String} (oneLine : rules.lineBreaks = false)
    (closed : Closed .statements text) (pending : List Char) :
    Moves rules (.code pending) (braced text) (.code pending) := by
  obtain ⟨_, _⟩ := rules
  cases oneLine
  exact braced_moves (closed.inside _ _)

theorem immediate_closed {body : String} (closed : Closed .statements body) :
    Closed .expression (immediate body) :=
  .append (.spelledThen rfl rfl (block_moves rfl closed _)) (.spelled rfl rfl)

namespace Context

/-- What the text of a node may hold in a place: only as an expression it keeps its semicolons in
brackets. -/
def rules : Context → Rules
  | .expression => .expression
  | .topLevel | .statement | .result => .statements

theorem wrap_closed {text : String} (context : Context) (closed : Closed .expression text) :
    Closed context.rules (context.wrap text) := by
  have statement := statements_of_expression closed
  cases context with
  | topLevel => exact statement
  | expression => exact closed
  | statement => exact .append statement (.spelled rfl rfl)
  | result => exact .append (.spelledThen rfl rfl statement) (.spelled rfl rfl)

theorem throwing_closed {value : String} (context : Context)
    (closed : Closed .expression value) : Closed context.rules (context.throwing value) := by
  have statement := statements_of_expression closed
  have ended : Closed .statements ("throw " ++ value ++ ";") :=
    .append (.spelledThen rfl rfl statement) (.spelled rfl rfl)
  cases context with
  | topLevel => exact .spelledThen rfl rfl statement
  | expression => exact immediate_closed ended
  | statement => exact ended
  | result => exact ended

/-- The objects on the way to a qualified name, given the plain steps of its qualifier. -/
theorem nestings_closed {rules : Rules} {segments : List String}
    (plain : ∀ segment ∈ segments, Plain segment) :
    ∀ t ∈ nestings segments, Closed rules t := by
  cases segments with
  | nil => simp [nestings]
  | cons first segments =>
    rw [List.forall_mem_cons] at plain
    obtain ⟨plainFirst, plain⟩ := plain
    -- the fold keeps a plain path, and closed steps up to it
    refine (List.foldlRecOn segments _ (motive := fun found : List String × String =>
      Plain found.2 ∧ ∀ t ∈ found.1, Closed rules t) ⟨plainFirst, by simp⟩ ?_).2
    rintro ⟨steps, path⟩ ⟨plainPath, closed⟩ segment member
    have longer : Plain (path ++ "." ++ segment) :=
      (plainPath.append (by decide)).append (plain segment member)
    refine ⟨longer, List.forall_mem_append.mpr ⟨closed, List.forall_mem_singleton.mpr ?_⟩⟩
    exact .append (.append (.append longer.closed (.spelled rfl rfl)) (longer.closed.moves _))
      (.spelled rfl rfl)

theorem assignments_closed {rules : Rules} {name : Variable} {value : String}
    (clean : name.IsClean) (closed : Closed rules value) :
    ∀ t ∈ assignments name value, Closed rules t := by
  refine List.forall_mem_append.mpr
    ⟨nestings_closed clean.segments_plain, List.forall_mem_singleton.mpr ?_⟩
  exact .append (.append (variableText_plain clean).closed (.spelled rfl rfl)) closed

theorem bindingText_closed {name : Variable} {value : String} (clean : name.IsClean)
    (closed : Closed .statements value) : Closed .statements (bindingText name value) := by
  unfold bindingText
  split
  · exact .append (.append (.spelledThen rfl rfl clean.base_plain.closed) (.spelled rfl rfl)) closed
  · exact .intercalate (.spelled rfl rfl) (assignments_closed clean closed)

theorem binding_closed {name : Variable} {value : String} (context : Context)
    (clean : name.IsClean) (closed : Closed .expression value) :
    Closed context.rules (context.binding name value) := by
  have bound := bindingText_closed clean (statements_of_expression closed)
  cases context with
  | topLevel => exact bound
  | expression => exact parenthesized_closed (commas_closed (assignments_closed clean closed))
  | statement => exact .append bound (.spelled rfl rfl)
  | result =>
    exact .append (.append (.append bound (.spelled rfl rfl)) (variableText_plain clean).closed)
      (.spelled rfl rfl)

theorem nothing_closed (context : Context) : Closed context.rules context.nothing := by
  cases context with
  | topLevel => exact .empty
  | expression => exact wrap_closed .expression (.spelled rfl rfl)
  | statement => exact .empty
  | result => exact wrap_closed .result (.spelled rfl rfl)

end Context

/-! ### Functions -/

/-- The complaint opens one bracket more than it closes. -/
theorem arityComplaint_moves {rules : Rules} {args : String} (closed : Closed rules args)
    (pending : List Char) :
    Moves rules (.code pending) (arityComplaint args) (.code (')' :: pending)) :=
  .append (.spelledThen rfl rfl (closed.moves _)) (.spelled rfl rfl)

theorem arityGuard_closed (params : Params) : Closed .statements (arityGuard params) := by
  have count : ∀ pending, Moves .statements (.code pending) (toString params.required)
      (.code pending) := (plain_toString params.required).closed.moves
  have complaint : ∀ pending, Moves .statements (.code pending) (arityComplaint "arguments")
      (.code (')' :: pending)) := arityComplaint_moves (.spelled rfl rfl)
  simp only [arityGuard]
  split
  · split
    · exact .empty
    · refine .append (.append (.append (.spelledThen rfl rfl (count _)) (.spelled rfl rfl))
        (braced_moves ?_)) (.spelled rfl rfl)
      exact .append (.append (.append (complaint _) (.spelled rfl rfl))
        (toString_moves_literal _ _ _)) (.spelled rfl rfl)
  · refine .append (.append (.append (.spelledThen rfl rfl (count _)) (.spelled rfl rfl))
      (braced_moves ?_)) (.spelled rfl rfl)
    exact .append (.append (.append (complaint _) (.spelled rfl rfl))
      (toString_moves_literal _ _ _)) (.spelled rfl rfl)

theorem trampoline_closed {body : String} {rebindings : List String}
    (closed : Closed .statements body) (each : ∀ t ∈ rebindings, Closed .statements t) :
    Closed .statements (trampoline body rebindings) := by
  have name : ∀ pending, Moves .statements (.code pending) caught (.code pending) :=
    fun _ => .spelled rfl rfl
  refine .spelledThen rfl rfl (braced_moves ?_)
  refine .append (.append (.append (.append (.spelledThen rfl rfl (block_moves rfl closed _))
    (.spelled rfl rfl)) (name _)) (.spelled rfl rfl)) (braced_moves ?_)
  refine .append (.append (.append (.append (.append (.append (.spelledThen rfl rfl (name _))
    (.spelled rfl rfl)) (.spelled rfl rfl)) (.spelled rfl rfl))
    (block_moves rfl (sequence_closed each) _)) (.spelled rfl rfl)) (braced_moves ?_)
  exact .append (.spelledThen rfl rfl (name _)) (.spelled rfl rfl)

theorem rebinding_closed {name : String} (index : Nat) (plain : Plain name) :
    Closed .statements (rebinding index name) :=
  .append (.append (.append (.append (.append plain.closed (.spelled rfl rfl)) (.spelled rfl rfl))
    (.spelled rfl rfl)) ((plain_toString index).closed.moves _)) (.spelled rfl rfl)

theorem rebindings_closed {params : Params} (clean : params.IsClean) :
    ∀ t ∈ rebindings params, Closed .statements t := by
  refine List.forall_mem_append.mpr ⟨?_, ?_⟩
  · intro t mem
    obtain ⟨index, bound, rfl⟩ := List.mem_mapIdx.mp mem
    exact rebinding_closed index (clean.base_plain_of_fixed _ (List.getElem_mem bound))
  · split
    · next rest variadic =>
      refine List.forall_mem_singleton.mpr ?_
      exact .append (.append (.append (.append (.append (clean.base_plain_of_rest variadic).closed
        (.spelled rfl rfl)) (.spelled rfl rfl)) (.spelled rfl rfl))
        ((plain_toString _).closed.moves _)) (.spelled rfl rfl)
    · simp

theorem restBinding_closed {params : Params} (clean : params.IsClean) :
    Closed .statements (restBinding params) := by
  unfold restBinding
  split
  · next rest variadic =>
    exact .append (.append (.append (.spelledThen rfl rfl
      (clean.base_plain_of_rest variadic).closed) (.spelled rfl rfl))
      ((plain_toString _).closed.moves _)) (.spelled rfl rfl)
  · exact .empty

theorem parameterNames_closed {rules : Rules} {params : Params} (clean : params.IsClean) :
    Closed rules (parameterNames params) := by
  refine commas_closed fun t mem => ?_
  obtain ⟨v, fixed, rfl⟩ := List.mem_map.mp mem
  exact (clean.base_plain_of_fixed v fixed).closed

theorem functionText_closed {params : Params} {body : String} (clean : params.IsClean)
    (closed : Closed .statements body) : Closed .expression (functionText params body) :=
  .append (.append (.append (.spelledThen rfl rfl ((parameterNames_closed clean).moves _))
    (.spelled rfl rfl)) (block_moves rfl closed _)) (.spelled rfl rfl)

theorem standaloneText_closed {params : Params} {body : String} (recurs : Bool)
    (clean : params.IsClean) (closed : Closed .statements body) :
    Closed .expression (standaloneText params recurs body) := by
  refine functionText_closed clean (((arityGuard_closed params).concat
    (restBinding_closed clean)).concat ?_)
  cases recurs with
  | false => exact closed
  | true => exact trampoline_closed closed (rebindings_closed clean)

theorem clauseTest_closed {rules : Rules} {args : String} (params : Params)
    (closed : Closed rules args) : Closed rules (clauseTest args params) := by
  have comparison : Closed rules (if params.isVariadic then ">= " else "=== ") := by
    split <;> exact .spelled rfl rfl
  exact .append (.append (.append closed (.spelled rfl rfl)) comparison)
    (plain_toString params.required).closed

theorem dispatchText_closed {clauses : List (Params × String)} (recurs : Bool)
    (each : ∀ clause ∈ clauses, clause.1.IsClean ∧ Closed .statements clause.2) :
    Closed .expression (dispatchText clauses recurs) := by
  have args : ∀ rules, Closed rules (if recurs then heldArguments else "arguments") := by
    intro rules
    split <;> exact .spelled rfl rfl
  simp only [dispatchText]
  refine .append (.spelledThen rfl rfl (block_moves rfl ?_ _)) (.spelled rfl rfl)
  have case : ∀ clause ∈ clauses, Closed .statements
      ("if (" ++ clauseTest (if recurs then heldArguments else "arguments") clause.1 ++ ") "
        ++ braced ("return " ++ functionText clause.1 (restBinding clause.1 ++ clause.2)
        ++ ".apply(this, " ++ (if recurs then heldArguments else "arguments") ++ ");")) := by
    intro clause listed
    obtain ⟨clean, closed⟩ := each _ listed
    have function := statements_of_expression
      (functionText_closed clean ((restBinding_closed clean).concat closed))
    refine .append (.append (.spelledThen rfl rfl ((clauseTest_closed clause.1 (args _)).moves _))
      (.spelled rfl rfl)) (braced_moves ?_)
    exact .append (.append (.append (.spelledThen rfl rfl (function.moves _)) (.spelled rfl rfl))
      ((args _).moves _)) (.spelled rfl rfl)
  have tried : Closed .statements
      (_ ++ " " ++ arityComplaint (if recurs then heldArguments else "arguments") ++ ");") :=
    .append (.append (.append (sequence_closed (List.forall_mem_map.mpr case)) (.spelled rfl rfl))
      (arityComplaint_moves (args _) _)) (.spelled rfl rfl)
  cases recurs with
  | false => exact tried
  | true =>
    have again : Closed .statements (heldArguments ++ "=" ++ caught ++ ".args;") :=
      .append (.append (.append (.spelled rfl rfl) (.spelled rfl rfl)) (.spelled rfl rfl))
        (.spelled rfl rfl)
    exact .append (.append (.spelledThen rfl rfl (.spelled rfl rfl)) (.spelled rfl rfl))
      (trampoline_closed tried (List.forall_mem_singleton.mpr again))

/-! ### Other constructs -/

theorem conditionalText_closed {branches : List (String × String)} {otherwise : String}
    (each : ∀ branch ∈ branches, Closed .expression branch.1 ∧ Closed .statements branch.2)
    (closed : Closed .statements otherwise) :
    Closed .expression (conditionalText branches otherwise) := by
  unfold conditionalText
  split
  · exact immediate_closed closed
  · refine immediate_closed (.concat (.concat ?_ (.spelled rfl rfl)) (block_moves rfl closed _))
    refine .intercalate (.spelled rfl rfl) fun t mem => ?_
    obtain ⟨⟨test, consequent⟩, listed, rfl⟩ := List.mem_map.mp mem
    obtain ⟨closedTest, closedConsequent⟩ := each _ listed
    exact .append (.append (.spelledThen rfl rfl ((statements_of_expression closedTest).moves _))
      (.spelled rfl rfl)) (block_moves rfl closedConsequent _)

theorem loopText_closed {bindings : List (String × String)} {body : String}
    (each : ∀ binding ∈ bindings, Plain binding.1 ∧ Closed .expression binding.2)
    (closed : Closed .statements body) : Closed .expression (loopText bindings body) := by
  refine immediate_closed (.append (.append (sequence_closed ?_) (.spelled rfl rfl))
    (trampoline_closed closed ?_))
  · intro t mem
    obtain ⟨⟨name, init⟩, listed, rfl⟩ := List.mem_map.mp mem
    obtain ⟨plain, closedInit⟩ := each _ listed
    exact .append (.append (.append (.spelledThen rfl rfl plain.closed) (.spelled rfl rfl))
      (statements_of_expression closedInit)) (.spelled rfl rfl)
  · intro t mem
    obtain ⟨index, bound, rfl⟩ := List.mem_mapIdx.mp mem
    exact rebinding_closed index (each _ (List.getElem_mem bound)).1

theorem catchText_closed {binding body : String} (plain : Plain binding)
    (closed : Closed .statements body) : Closed .statements (catchText binding body) := by
  have name : ∀ pending, Moves .statements (.code pending) binding (.code pending) :=
    plain.closed.moves
  refine .append (.append (.spelledThen rfl rfl (name _)) (.spelled rfl rfl)) (braced_moves ?_)
  refine .append (.append (.append (.append (.append (.append (.spelledThen rfl rfl (name _))
    (.spelled rfl rfl)) (.spelled rfl rfl)) (.spelled rfl rfl)) (braced_moves ?_))
    (.spelled rfl rfl)) (closed.moves _)
  exact .append (.spelledThen rfl rfl (name _)) (.spelled rfl rfl)

theorem finallyText_closed {body : String} (closed : Closed .statements body) :
    Closed .statements (finallyText body) :=
  .spelledThen rfl rfl (block_moves rfl closed _)

theorem tryText_closed {body handler cleanup : String} (closed : Closed .statements body)
    (closedHandler : Closed .statements handler) (closedCleanup : Closed .statements cleanup) :
    Closed .expression (tryText body handler cleanup) :=
  immediate_closed (.concat (.concat (.spelledThen rfl rfl (block_moves rfl closed _))
    closedHandler) closedCleanup)

theorem methodText_closed {attributes : List Variable} {params : Params} {body : String}
    (cleanAttributes : ∀ v ∈ attributes, v.IsClean) (clean : params.IsClean)
    (closed : Closed .statements body) :
    Closed .expression (methodText attributes params body) := by
  refine .append (.append (.spelledThen rfl rfl ((parameterNames_closed clean).moves _))
    (.spelled rfl rfl)) (block_moves rfl ?_ _)
  refine .concat (.concat (.join fun t mem => ?_) (restBinding_closed clean)) closed
  obtain ⟨v, listed, rfl⟩ := List.mem_map.mp mem
  have plain := (cleanAttributes v listed).base_plain
  exact .append (.append (.append (.spelledThen rfl rfl plain.closed) (.spelled rfl rfl))
    plain.closed) (.spelled rfl rfl)

theorem typeText_closed {name : Variable} {attributes protocols : List Variable}
    {methods : List (Variable × String)} (cleanName : name.IsClean)
    (cleanAttributes : ∀ v ∈ attributes, v.IsClean) (cleanProtocols : ∀ v ∈ protocols, v.IsClean)
    (each : ∀ method ∈ methods, method.1.IsClean ∧ Closed .expression method.2) :
    Closed .expression (typeText name attributes protocols methods) := by
  have plain : ∀ rules, Closed rules name.base := fun _ => cleanName.base_plain.closed
  refine immediate_closed (sequence_closed ?_)
  refine List.forall_mem_append.mpr ⟨List.forall_mem_append.mpr
    ⟨List.forall_mem_cons.mpr ⟨?_, ?_⟩, ?_⟩, List.forall_mem_singleton.mpr ?_⟩
  · refine .append (.append (.append (.append (.spelledThen rfl rfl (plain _)) (.spelled rfl rfl))
      (Closed.moves (commas_closed fun t mem => ?_) _)) (.spelled rfl rfl))
      (block_moves rfl (sequence_closed fun t mem => ?_) _)
    · obtain ⟨v, listed, rfl⟩ := List.mem_map.mp mem
      exact (cleanAttributes v listed).base_plain.closed
    · obtain ⟨v, listed, rfl⟩ := List.mem_map.mp mem
      have plain := (cleanAttributes v listed).base_plain
      exact .append (.append (.append (.spelledThen rfl rfl plain.closed) (.spelled rfl rfl))
        plain.closed) (.spelled rfl rfl)
  · intro t mem
    obtain ⟨v, listed, rfl⟩ := List.mem_map.mp mem
    exact .append (.append (.append (.spelledThen rfl rfl ((plain _).moves _)) (.spelled rfl rfl))
      ((variableText_plain (cleanProtocols v listed)).closed.moves _)) (.spelled rfl rfl)
  · intro t mem
    obtain ⟨⟨method, text⟩, listed, rfl⟩ := List.mem_map.mp mem
    obtain ⟨clean, closed⟩ := each _ listed
    exact .append (.append (.append (.append (.append (plain _) (.spelled rfl rfl))
      clean.base_plain.closed) (.spelled rfl rfl)) (statements_of_expression closed))
      (.spelled rfl rfl)
  · exact .append (.spelledThen rfl rfl (plain _)) (.spelled rfl rfl)

theorem protocolText_closed {protocols : List Variable} {methods : List (Variable × String)}
    (cleanProtocols : ∀ v ∈ protocols, v.IsClean)
    (each : ∀ method ∈ methods, method.1.IsClean ∧ Closed .expression method.2) :
    Closed .expression (protocolText protocols methods) := by
  refine .append (.spelledThen rfl rfl (Closed.moves (commas_closed ?_) _)) (.spelled rfl rfl)
  refine List.forall_mem_append.mpr ⟨List.forall_mem_cons.mpr ⟨.spelled rfl rfl, ?_⟩,
    List.forall_mem_singleton.mpr ?_⟩
  · intro t mem
    obtain ⟨v, listed, rfl⟩ := List.mem_map.mp mem
    exact (variableText_plain (cleanProtocols v listed)).closed
  · refine .append (.spelledThen rfl rfl (Closed.moves (commas_closed fun t mem => ?_) _))
      (.spelled rfl rfl)
    obtain ⟨⟨method, text⟩, listed, rfl⟩ := List.mem_map.mp mem
    obtain ⟨clean, closed⟩ := each _ listed
    exact .append (.append clean.base_plain.closed (.spelled rfl rfl)) closed

/-! ### Constructs with a text of their own -/

section Constructs

variable {first second : String} {texts : List String}

theorem boolean_closed (b : Bool) : Closed .expression (if b then "true" else "false") := by
  split <;> exact .spelled rfl rfl

theorem rational_closed (n d : Int64) :
    Closed .expression ("(" ++ integerText n ++ "/" ++ Integer.text d ++ ")") :=
  .append (.append (.append (.spelledThen rfl rfl ((integerText_closed _ n).moves _))
    (.spelled rfl rfl)) ((plain_integer d).closed.moves _)) (.spelled rfl rfl)

theorem keyword_closed (name : Name) :
    Closed .expression ("mori.keyword(" ++ nameText name ++ ")") :=
  .append (.spelledThen rfl rfl ((nameText_closed _ name).moves _)) (.spelled rfl rfl)

theorem symbol_closed (name : Name) : Closed .expression ("mori.symbol(" ++ nameText name ++ ")") :=
  .append (.spelledThen rfl rfl ((nameText_closed _ name).moves _)) (.spelled rfl rfl)

theorem vector_closed (each : ∀ t ∈ texts, Closed .expression t) :
    Closed .expression ("mori.vector(" ++ commas texts ++ ")") :=
  .append (.spelledThen rfl rfl ((commas_closed each).moves _)) (.spelled rfl rfl)

theorem list_closed (each : ∀ t ∈ texts, Closed .expression t) :
    Closed .expression ("mori.list(" ++ commas texts ++ ")") :=
  .append (.spelledThen rfl rfl ((commas_closed each).moves _)) (.spelled rfl rfl)

theorem set_closed (each : ∀ t ∈ texts, Closed .expression t) :
    Closed .expression ("mori.set([" ++ commas texts ++ "])") :=
  .append (.spelledThen rfl rfl ((commas_closed each).moves _)) (.spelled rfl rfl)

theorem map_closed (each : ∀ t ∈ texts, Closed .expression t) :
    Closed .expression ("mori.hashMap(" ++ commas texts ++ ")") :=
  .append (.spelledThen rfl rfl ((commas_closed each).moves _)) (.spelled rfl rfl)

theorem recursionPoint_closed (each : ∀ t ∈ texts, Closed .expression t) :
    Closed .expression ("new " ++ recursionPoint ++ "([" ++ commas texts ++ "])") :=
  .append (.append (.append (.spelledThen rfl rfl (.spelled rfl rfl)) (.spelled rfl rfl))
    ((commas_closed each).moves _)) (.spelled rfl rfl)

theorem instantiation_closed (closed : Closed .expression first)
    (each : ∀ t ∈ texts, Closed .expression t) :
    Closed .expression ("(new " ++ first ++ "(" ++ commas texts ++ "))") :=
  .append (.append (.append (.spelledThen rfl rfl (closed.moves _)) (.spelled rfl rfl))
    ((commas_closed each).moves _)) (.spelled rfl rfl)

theorem methodCall_closed {method : Variable} (closed : Closed .expression first)
    (clean : method.IsClean) (each : ∀ t ∈ texts, Closed .expression t) :
    Closed .expression (first ++ "." ++ method.base ++ "(" ++ commas texts ++ ")") :=
  .append (.append (.append (.append (.append closed (.spelled rfl rfl)) clean.base_plain.closed)
    (.spelled rfl rfl)) ((commas_closed each).moves _)) (.spelled rfl rfl)

theorem property_closed {property : Variable} (closed : Closed .expression first)
    (clean : property.IsClean) : Closed .expression (first ++ "." ++ property.base) :=
  .append (.append closed (.spelled rfl rfl)) clean.base_plain.closed

theorem assignment_closed (closedTarget : Closed .expression first)
    (closedValue : Closed .expression second) :
    Closed .expression ("(" ++ first ++ "=" ++ second ++ ")") :=
  .append (.append (.append (.spelledThen rfl rfl (closedTarget.moves _)) (.spelled rfl rfl))
    (closedValue.moves _)) (.spelled rfl rfl)

theorem binary_closed (operator : BinaryOperator) (closedLeft : Closed .expression first)
    (closedRight : Closed .expression second) :
    Closed .expression ("(" ++ first ++ binaryToken operator ++ second ++ ")") :=
  .append (.append (.append (.spelledThen rfl rfl (closedLeft.moves _))
    ((binaryToken_closed _ operator).moves _)) (closedRight.moves _)) (.spelled rfl rfl)

theorem unary_closed (operator : UnaryOperator) (closed : Closed .expression first) :
    Closed .expression ("(" ++ unaryToken operator ++ first ++ ")") :=
  .append (.append (.spelledThen rfl rfl ((unaryToken_closed _ operator).moves _))
    (closed.moves _)) (.spelled rfl rfl)

end Constructs

/-! ### Nodes -/

-- Each construct is closed by its lemma; the walk only hands the clean names to the parts.
mutual

/-- The text of a clean node is closed under the rules of its place. -/
theorem textOf_closed (context : Context) (node : Node) (clean : node.IsClean) :
    Closed context.rules (textOf context node) := by
  match node with
  | .exception expression =>
    exact context.throwing_closed (textOf_closed .expression expression clean)
  | .recursionPoint args =>
    exact context.throwing_closed (recursionPoint_closed (textsOf_closed args clean))
  | .definition name value =>
    obtain ⟨cleanName, cleanValue⟩ := List.forall_mem_cons.mp clean
    exact context.binding_closed cleanName (textOf_closed .expression value cleanValue)
  | .protocolDefinition name protocols methods =>
    obtain ⟨cleanNames, cleanMethods⟩ := List.forall_mem_append.mp clean
    obtain ⟨cleanName, cleanProtocols⟩ := List.forall_mem_cons.mp cleanNames
    exact context.binding_closed cleanName (protocolText_closed cleanProtocols
      (methodTexts_closed [] methods (List.forall_mem_nil _) cleanMethods))
  | .macroDefinition _ _ => exact context.nothing_closed
  | .nil _ => exact context.wrap_closed (.spelled rfl rfl)
  | .boolean b => exact context.wrap_closed (boolean_closed b.value)
  | .integer i => exact context.wrap_closed (integerText_closed _ _)
  | .rational n d => exact context.wrap_closed (rational_closed n d)
  | .decimal d => exact context.wrap_closed (decimalText_closed _ d)
  | .string s => exact context.wrap_closed (quoted_closed _ s.value)
  | .keyword k => exact context.wrap_closed (keyword_closed k.value)
  | .symbol s => exact context.wrap_closed (symbol_closed s.value)
  | .vector es => exact context.wrap_closed (vector_closed (textsOf_closed es clean))
  | .list es => exact context.wrap_closed (list_closed (textsOf_closed es clean))
  | .set es => exact context.wrap_closed (set_closed (textsOf_closed es clean))
  | .map es => exact context.wrap_closed (map_closed (entryTexts_closed es clean))
  | .reference v =>
    exact context.wrap_closed (variableText_plain (clean v List.mem_cons_self)).closed
  | .conditional branches otherwise =>
    obtain ⟨cleanBranches, cleanOtherwise⟩ := List.forall_mem_append.mp clean
    exact context.wrap_closed (conditionalText_closed (branchTexts_closed branches cleanBranches)
      (textOf_closed .result otherwise cleanOtherwise))
  | .lambda function => exact context.wrap_closed (lambdaText_closed function clean)
  | .block body =>
    exact context.wrap_closed (immediate_closed (sequence_closed (bodyTexts_closed body clean)))
  | .loop bindings body =>
    obtain ⟨cleanBindings, cleanBody⟩ := List.forall_mem_append.mp clean
    exact context.wrap_closed (loopText_closed (bindingTexts_closed bindings cleanBindings)
      (sequence_closed (bodyTexts_closed body cleanBody)))
  | .exceptionHandler body handler cleanup =>
    obtain ⟨cleanTried, cleanCleanup⟩ := List.forall_mem_append.mp clean
    obtain ⟨cleanBody, cleanHandler⟩ := List.forall_mem_append.mp cleanTried
    exact context.wrap_closed (tryText_closed (sequence_closed (bodyTexts_closed body cleanBody))
      (handlerText_closed handler cleanHandler) (cleanupText_closed cleanup cleanCleanup))
  | .classInstantiation constructor args =>
    obtain ⟨cleanConstructor, cleanArgs⟩ := List.forall_mem_append.mp clean
    exact context.wrap_closed (instantiation_closed
      (textOf_closed .expression constructor cleanConstructor) (textsOf_closed args cleanArgs))
  | .methodResolution object method args =>
    obtain ⟨cleanNames, cleanArgs⟩ := List.forall_mem_append.mp clean
    obtain ⟨cleanMethod, cleanObject⟩ := List.forall_mem_cons.mp cleanNames
    exact context.wrap_closed (methodCall_closed (textOf_closed .expression object cleanObject)
      cleanMethod (textsOf_closed args cleanArgs))
  | .propertyResolution object property =>
    obtain ⟨cleanProperty, cleanObject⟩ := List.forall_mem_cons.mp clean
    exact context.wrap_closed
      (property_closed (textOf_closed .expression object cleanObject) cleanProperty)
  | .assignment target value =>
    obtain ⟨cleanTarget, cleanValue⟩ := List.forall_mem_append.mp clean
    exact context.wrap_closed (assignment_closed (textOf_closed .expression target cleanTarget)
      (textOf_closed .expression value cleanValue))
  | .application invocable args _ =>
    obtain ⟨cleanInvocable, cleanArgs⟩ := List.forall_mem_append.mp clean
    exact context.wrap_closed (applicationText_closed
      (textOf_closed .expression invocable cleanInvocable) (textsOf_closed args cleanArgs))
  | .binary operator left right =>
    obtain ⟨cleanLeft, cleanRight⟩ := List.forall_mem_append.mp clean
    exact context.wrap_closed (binary_closed operator (textOf_closed .expression left cleanLeft)
      (textOf_closed .expression right cleanRight))
  | .unary operator operand =>
    exact context.wrap_closed (unary_closed operator (textOf_closed .expression operand clean))
  | .arithmetic operator args =>
    exact context.wrap_closed (arithmeticText_closed operator (arithmeticToken_closed _ operator)
      (textsOf_closed args clean))
  | .typeDefinition name attributes protocols methods =>
    obtain ⟨cleanNames, cleanMethods⟩ := List.forall_mem_append.mp clean
    obtain ⟨cleanNames, cleanProtocols⟩ := List.forall_mem_append.mp cleanNames
    obtain ⟨cleanName, cleanAttributes⟩ := List.forall_mem_cons.mp cleanNames
    exact context.wrap_closed (typeText_closed cleanName cleanAttributes cleanProtocols
      (methodTexts_closed attributes methods cleanAttributes cleanMethods))

/-- The texts of clean nodes as expressions. -/
theorem textsOf_closed (nodes : List Node) (clean : ∀ v ∈ Node.namesOfAll nodes, v.IsClean) :
    ∀ t ∈ textsOf nodes, Closed .expression t := by
  match nodes with
  | [] => simp [textsOf]
  | node :: rest =>
    obtain ⟨cleanNode, cleanRest⟩ := List.forall_mem_append.mp clean
    rw [textsOf]
    exact List.forall_mem_cons.mpr
      ⟨textOf_closed .expression node cleanNode, textsOf_closed rest cleanRest⟩

theorem entryTexts_closed (entries : List (Node × Node))
    (clean : ∀ v ∈ Node.namesOfEntries entries, v.IsClean) :
    ∀ t ∈ entryTexts entries, Closed .expression t := by
  match entries with
  | [] => simp [entryTexts]
  | (key, value) :: rest =>
    obtain ⟨cleanEntry, cleanRest⟩ := List.forall_mem_append.mp clean
    obtain ⟨cleanKey, cleanValue⟩ := List.forall_mem_append.mp cleanEntry
    rw [entryTexts]
    exact List.forall_mem_cons.mpr ⟨textOf_closed .expression key cleanKey, List.forall_mem_cons.mpr
      ⟨textOf_closed .expression value cleanValue, entryTexts_closed rest cleanRest⟩⟩

/-- Tests of clean nodes are expressions, and their consequents statements. -/
theorem branchTexts_closed (branches : List (Node × Node))
    (clean : ∀ v ∈ Node.namesOfEntries branches, v.IsClean) :
    ∀ branch ∈ branchTexts branches,
      Closed .expression branch.1 ∧ Closed .statements branch.2 := by
  match branches with
  | [] => simp [branchTexts]
  | (test, consequent) :: rest =>
    obtain ⟨cleanBranch, cleanRest⟩ := List.forall_mem_append.mp clean
    obtain ⟨cleanTest, cleanConsequent⟩ := List.forall_mem_append.mp cleanBranch
    rw [branchTexts]
    exact List.forall_mem_cons.mpr ⟨⟨textOf_closed .expression test cleanTest,
      textOf_closed .result consequent cleanConsequent⟩, branchTexts_closed rest cleanRest⟩

theorem bindingTexts_closed (bindings : List (Variable × Node))
    (clean : ∀ v ∈ Node.namesOfBindings bindings, v.IsClean) :
    ∀ binding ∈ bindingTexts bindings, Plain binding.1 ∧ Closed .expression binding.2 := by
  match bindings with
  | [] => simp [bindingTexts]
  | (name, init) :: rest =>
    obtain ⟨cleanBinding, cleanRest⟩ := List.forall_mem_append.mp clean
    obtain ⟨cleanName, cleanInit⟩ := List.forall_mem_cons.mp cleanBinding
    rw [bindingTexts]
    exact List.forall_mem_cons.mpr
      ⟨⟨cleanName.base_plain, textOf_closed .expression init cleanInit⟩,
      bindingTexts_closed rest cleanRest⟩

/-- The statements of a body, the last of which returns. -/
theorem bodyTexts_closed (body : List Node) (clean : ∀ v ∈ Node.namesOfAll body, v.IsClean) :
    ∀ t ∈ bodyTexts body, Closed .statements t := by
  match body with
  | [] =>
    rw [bodyTexts]
    exact List.forall_mem_singleton.mpr (.spelled rfl rfl)
  | [last] =>
    obtain ⟨cleanLast, _⟩ := List.forall_mem_append.mp clean
    rw [bodyTexts]
    exact List.forall_mem_singleton.mpr (textOf_closed .result last cleanLast)
  | node :: second :: rest =>
    obtain ⟨cleanNode, cleanRest⟩ := List.forall_mem_append.mp clean
    have others := bodyTexts_closed (second :: rest) cleanRest
    rw [bodyTexts.eq_3 _ _ (List.cons_ne_nil second rest)]
    split
    · exact others
    · exact List.forall_mem_cons.mpr ⟨textOf_closed .statement node cleanNode, others⟩

theorem statementTexts_closed (nodes : List Node)
    (clean : ∀ v ∈ Node.namesOfAll nodes, v.IsClean) :
    ∀ t ∈ statementTexts nodes, Closed .statements t := by
  match nodes with
  | [] => simp [statementTexts]
  | node :: rest =>
    obtain ⟨cleanNode, cleanRest⟩ := List.forall_mem_append.mp clean
    rw [statementTexts]
    exact List.forall_mem_cons.mpr
      ⟨textOf_closed .statement node cleanNode, statementTexts_closed rest cleanRest⟩

theorem handlerText_closed (handler : Option (Variable × List Node))
    (clean : ∀ v ∈ Node.namesOfHandler handler, v.IsClean) :
    Closed .statements (handlerText handler) := by
  match handler with
  | some (binding, body) =>
    obtain ⟨cleanBinding, cleanBody⟩ := List.forall_mem_cons.mp clean
    exact catchText_closed cleanBinding.base_plain
      (sequence_closed (bodyTexts_closed body cleanBody))
  | none => exact .empty

theorem cleanupText_closed (cleanup : Option (List Node))
    (clean : ∀ v ∈ Node.namesOfCleanup cleanup, v.IsClean) :
    Closed .statements (cleanupText cleanup) := by
  match cleanup with
  | some body => exact finallyText_closed (sequence_closed (statementTexts_closed body clean))
  | none => exact .empty

/-- The text of a clean function. -/
theorem lambdaText_closed (function : Lambda)
    (clean : ∀ v ∈ Node.namesOfLambda function, v.IsClean) :
    Closed .expression (lambdaText function) := by
  match function with
  | .single (.mk params body) =>
    obtain ⟨cleanParams, cleanBody⟩ := List.forall_mem_append.mp clean
    rw [lambdaText]
    exact standaloneText_closed _ cleanParams (sequence_closed (bodyTexts_closed body cleanBody))
  | .multi clauses =>
    rw [lambdaText]
    exact dispatchText_closed _ fun clause member =>
      clauseTexts_closed clauses clean clause (mem_fixedFirst.mp member)

theorem clauseTexts_closed (clauses : List Clause)
    (clean : ∀ v ∈ Node.namesOfClauses clauses, v.IsClean) :
    ∀ clause ∈ clauseTexts clauses, clause.1.IsClean ∧ Closed .statements clause.2 := by
  match clauses with
  | [] => simp [clauseTexts]
  | .mk params body :: rest =>
    obtain ⟨cleanClause, cleanRest⟩ := List.forall_mem_append.mp clean
    obtain ⟨cleanParams, cleanBody⟩ := List.forall_mem_append.mp cleanClause
    rw [clauseTexts]
    exact List.forall_mem_cons.mpr
      ⟨⟨cleanParams, sequence_closed (bodyTexts_closed body cleanBody)⟩,
      clauseTexts_closed rest cleanRest⟩

theorem methodTexts_closed (attributes : List Variable) (methods : List Method)
    (cleanAttributes : ∀ v ∈ attributes, v.IsClean)
    (clean : ∀ v ∈ Node.namesOfMethods methods, v.IsClean) :
    ∀ method ∈ methodTexts attributes methods,
      method.1.IsClean ∧ Closed .expression method.2 := by
  match methods with
  | [] => simp [methodTexts]
  | .mk name params body :: rest =>
    obtain ⟨cleanMethod, cleanRest⟩ := List.forall_mem_append.mp clean
    obtain ⟨cleanHead, cleanBody⟩ := List.forall_mem_append.mp cleanMethod
    obtain ⟨cleanName, cleanParams⟩ := List.forall_mem_cons.mp cleanHead
    rw [methodTexts]
    exact List.forall_mem_cons.mpr ⟨⟨cleanName, methodText_closed cleanAttributes cleanParams
      (sequence_closed (bodyTexts_closed body cleanBody))⟩,
      methodTexts_closed attributes rest cleanAttributes cleanRest⟩

end

/-! ### No expression is empty -/

theorem arithmeticText_ne_empty {token : String} {operands : List String}
    (operator : ArithmeticOperator) (nonempty : ∀ t ∈ operands, t ≠ "") :
    arithmeticText operator token operands ≠ "" := by
  match operands with
  | [] => cases operator <;> simp [arithmeticText]
  | [operand] =>
    have operandNonempty : operand ≠ "" := nonempty operand List.mem_cons_self
    have signed : prefixed token operand ≠ "" := prefixed_ne_empty (.inr operandNonempty)
    cases operator with
    | add => exact signed
    | subtract => exact signed
    | multiply => exact operandNonempty
    | divide => exact operandNonempty
  | _ :: _ :: _ => simp [arithmeticText]

theorem primitive_ne_empty {name text : String} {args : List String}
    (inlined : primitive? name args = some text) : text ≠ "" := by
  unfold primitive? at inlined
  split at inlined
  · cases inlined; simp
  · cases inlined; simp
  · cases inlined; simp
  · cases inlined; simp
  · split at inlined
    · cases inlined; simp
    · cases inlined
  · cases inlined; simp
  · cases inlined

theorem applicationText_ne_empty (invocable : Node) (callee : String) (args : List String) :
    applicationText invocable callee args ≠ "" := by
  rw [applicationText]
  cases inlined : inlined? invocable args with
  | some text =>
    obtain ⟨name, -, written⟩ := named_of_inlined inlined
    exact primitive_ne_empty written
  | none => simp [callText]

mutual

/-- A clean node has a text wherever a value is needed. Only a product or quotient of a single
operand is a text of its operand and nothing else. -/
theorem textOf_ne_empty (node : Node) (clean : node.IsClean) : textOf .expression node ≠ "" := by
  match node with
  | .arithmetic operator args =>
    rw [textOf]
    exact arithmeticText_ne_empty operator (textsOf_ne_empty args clean)
  | .reference v =>
    have cleanBase := (clean v List.mem_cons_self).base_ne_empty
    rw [textOf]
    simp only [Context.wrap, variableText]
    split <;> simp [cleanBase]
  | .boolean b =>
    rw [textOf]
    simp only [Context.wrap]
    split <;> simp
  | .integer i =>
    rw [textOf]
    simp only [Context.wrap, integerText]
    split <;> simp [integer_ne_empty]
  | .decimal d =>
    rw [textOf]
    simp only [Context.wrap, decimalText]
    split <;> simp [decimal_ne_empty]
  | .conditional branches otherwise =>
    rw [textOf]
    simp only [Context.wrap, conditionalText]
    split <;> simp [immediate]
  | .lambda function =>
    rw [textOf, Context.wrap, lambdaText.eq_def]
    split <;> simp [standaloneText, functionText, dispatchText]
  | .application invocable args _ =>
    rw [textOf]
    exact applicationText_ne_empty _ _ _
  | .exceptionHandler body handler cleanup =>
    rw [textOf]
    simp [Context.wrap, tryText, immediate]
  | .exception _ | .recursionPoint _ => simp [textOf, Context.throwing, immediate]
  | .definition _ _ | .protocolDefinition _ _ _ => simp [textOf, Context.binding]
  | .macroDefinition _ _ | .nil _ => simp [textOf, Context.nothing, Context.wrap]
  | .string _ => simp [textOf, Context.wrap, quoted]
  | .loop _ _ | .block _ | .typeDefinition _ _ _ _ =>
    simp [textOf, Context.wrap, loopText, typeText, immediate]
  | .rational _ _ | .keyword _ | .symbol _ | .vector _ | .list _ | .set _ | .map _
  | .classInstantiation _ _ | .methodResolution _ _ _ | .propertyResolution _ _ | .assignment _ _
  | .binary _ _ _ | .unary _ _ => simp [textOf, Context.wrap]

theorem textsOf_ne_empty (nodes : List Node)
    (clean : ∀ v ∈ Node.namesOfAll nodes, v.IsClean) : ∀ t ∈ textsOf nodes, t ≠ "" := by
  match nodes with
  | [] => simp [textsOf]
  | node :: rest =>
    obtain ⟨cleanNode, cleanRest⟩ := List.forall_mem_append.mp clean
    rw [textsOf]
    exact List.forall_mem_cons.mpr ⟨textOf_ne_empty node cleanNode, textsOf_ne_empty rest cleanRest⟩

end

end JavaScript

end ScriptLisp
