import ScriptLisp.Proofs.Eval.Discipline
import ScriptLisp.Proofs.Form.Within

/-!
Operators and library procedures keep every discipline: what they give is made of what they get,
and the faults they end in are ordinary ones.

* `Discipline.Answers`: the same for results that need no machine.
* `holds_setOf`, `holds_mapOf`, `holdsAll_elements`: building values up and taking them apart.
* `answers_arithmetic`, `answers_binary`, `answers_unary`: operators.
* `alike_call`: calls of library procedures.
* `holds_ofForm`: forms as values.
-/

namespace ScriptLisp.Eval.Discipline

variable {d : Discipline} {lenient : Prop} {α β : Type}

/-! ### Results without a machine -/

variable (d) in
/-- A result is allowed: a value with some property, or an allowed fault. -/
def Answers (post : α → Prop) : Except Fault α → Prop
  | .ok result => post result
  | .error reason => d.Raises reason

namespace Answers

variable {post : α → Prop} {next : β → Prop} {result : Except Fault α}

/-- Two results in sequence, where the second one may rely on what is said of the first. -/
theorem bind {second : α → Except Fault β} (starts : d.Answers post result)
    (goesOn : ∀ value, post value → d.Answers next (second value)) :
    d.Answers next (result >>= second) := by
  cases result with
  | ok value => exact goesOn value starts
  | error reason => exact starts

/-- What is made of a result. -/
theorem map {f : α → β} (answers : d.Answers post result)
    (maps : ∀ value, post value → next (f value)) : d.Answers next (result.map f) := by
  cases result with
  | ok value => exact maps value answers
  | error reason => exact answers

end Answers

/-- A result that is allowed is like itself. -/
theorem Answers.self {post : α → Prop} {alike : α → α → Prop} {result : Except Fault α}
    (answers : d.Answers post result) (same : ∀ value, post value → alike value value) :
    (d.comparison lenient).Answers alike result result := by
  cases result with
  | ok value => exact .ok (same value answers)
  | error reason => exact .error ⟨answers, rfl⟩

/-- The same for values, which are like themselves if they are allowed. -/
theorem Answers.value {result : Except Fault Value} (answers : d.Answers d.Holds result) :
    (d.comparison lenient).Answers (d.comparison lenient).value result result :=
  answers.self fun _ holds => ⟨holds, rfl⟩

/-! ### Building values -/

/-- A value that is made without a condition and has no parts. -/
theorem holds_atom {value : Value} (plain : value.IsPlain) (single : value.parts = []) :
    d.Holds value := by
  refine Value.throughout_iff.mpr ⟨d.value_plain plain, ?_⟩
  rw [single]
  exact fun _ member => absurd member List.not_mem_nil

theorem holdsAll_nil : d.HoldsAll [] :=
  fun _ member => absurd member List.not_mem_nil

theorem holdsAll_cons {value : Value} {values : List Value} :
    d.HoldsAll (value :: values) ↔ d.Holds value ∧ d.HoldsAll values :=
  List.forall_mem_cons

theorem holdsAll_append {first second : List Value} :
    d.HoldsAll (first ++ second) ↔ d.HoldsAll first ∧ d.HoldsAll second :=
  List.forall_mem_append

theorem HoldsAll.subset {values fewer : List Value} (holds : d.HoldsAll values)
    (subset : fewer ⊆ values) : d.HoldsAll fewer :=
  fun value member => holds value (subset member)

/-- Lists are allowed whenever their elements are. -/
theorem holds_list {elements : List Value} (holds : d.HoldsAll elements) :
    d.Holds (.list elements) :=
  Value.throughout_iff.mpr ⟨d.value_plain trivial, holds⟩

/-- So are vectors. -/
theorem holds_vector {elements : List Value} (holds : d.HoldsAll elements) :
    d.Holds (.vector elements) :=
  Value.throughout_iff.mpr ⟨d.value_plain trivial, holds⟩

/-- A set stays allowed when allowed elements are added. -/
theorem holds_adjoinAll {elements additions : List Value} (set : d.Holds (.set elements))
    (added : d.HoldsAll additions) : d.Holds (.set (additions.foldl Value.adjoin elements)) := by
  induction additions generalizing elements with
  | nil => exact set
  | cons first rest ih =>
    obtain ⟨addedFirst, addedRest⟩ := holdsAll_cons.mp added
    refine ih (Value.throughout_iff.mpr ⟨d.value_adjoin set addedFirst, ?_⟩) addedRest
    intro part member
    rcases Value.mem_of_mem_adjoin member with older | rfl
    · exact set.below older
    · exact addedFirst

/-- A set is built up from the empty one. -/
theorem holds_setOf {elements : List Value} (holds : d.HoldsAll elements) :
    d.Holds (Value.setOf elements) :=
  holds_adjoinAll (Value.throughout_iff.mpr ⟨d.value_emptySet, holdsAll_nil⟩) holds

/-- A map stays allowed when an allowed entry is put in. -/
theorem holds_insertEntry {entries : List (Value × Value)} {key item : Value}
    (map : d.Holds (.map entries)) (holdsKey : d.Holds key) (holdsItem : d.Holds item) :
    d.Holds (.map (Value.insertEntry entries key item)) := by
  refine Value.throughout_map.mpr ⟨d.value_insert map holdsKey holdsItem, ?_⟩
  intro entry member
  rcases Value.mem_of_mem_insertEntry member with older | rfl
  · exact (Value.throughout_map.mp map).2 entry older
  · exact ⟨holdsKey, holdsItem⟩

/-- A map is built up from the empty one. -/
theorem holds_mapOf {entries : List (Value × Value)}
    (holds : ∀ entry ∈ entries, d.Holds entry.1 ∧ d.Holds entry.2) :
    d.Holds (Value.mapOf entries) := by
  have empty : d.Holds (.map []) := Value.throughout_iff.mpr ⟨d.value_emptyMap, holdsAll_nil⟩
  refine List.foldlRecOn entries _ (motive := fun found => d.Holds (.map found)) empty ?_
  intro found map entry member
  exact holds_insertEntry map (holds entry member).1 (holds entry member).2

/-! ### Taking values apart -/

/-- The elements of a sequence are its parts, or vectors of its parts for a map, or the characters
of a string, which are strings. -/
theorem holdsAll_elements {value : Value} {elements : List Value} (holds : d.Holds value)
    (taken : value.elements? = some elements) : d.HoldsAll elements := by
  cases value with
  | nil => cases taken; exact holdsAll_nil
  | list | vector | set => cases taken; exact fun part member => holds.below member
  | map entries =>
    cases taken
    intro part member
    obtain ⟨entry, among, rfl⟩ := List.mem_map.mp member
    obtain ⟨holdsKey, holdsItem⟩ := (Value.throughout_map.mp holds).2 entry among
    exact holds_vector (holdsAll_cons.mpr ⟨holdsKey, holdsAll_cons.mpr ⟨holdsItem, holdsAll_nil⟩⟩)
  | string text =>
    cases taken
    intro part member
    obtain ⟨c, -, rfl⟩ := List.mem_map.mp member
    exact holds_atom trivial rfl
  | _ => cases taken

/-- What is no sequence is an ordinary fault. -/
theorem answers_elementsOf {value : Value} (holds : d.Holds value) :
    d.Answers d.HoldsAll (elementsOf value) := by
  rw [elementsOf]
  split
  · rename_i taken
    exact holdsAll_elements holds taken
  · exact raises_of_ordinary trivial

/-! ### Operators -/

abbrev Anything (_ : α) : Prop :=
  True

/-- What is no integer is an ordinary fault. -/
theorem answers_integer (value : Value) : d.Answers Anything (integer value) := by
  rw [integer.eq_def]
  split
  · trivial
  · exact raises_of_ordinary trivial

theorem answers_decimal (value : Value) : d.Answers Anything (decimal value) := by
  rw [decimal.eq_def]
  split
  · trivial
  · trivial
  · trivial
  · exact raises_of_ordinary trivial

/-- A result that does not fit is an ordinary fault. -/
theorem answers_exact (result : Option Int64) : d.Answers d.Holds (exact result) := by
  cases result with
  | some i => exact holds_atom trivial rfl
  | none => exact raises_of_ordinary trivial

theorem answers_integerStep (operator : ArithmeticOperator) (l r : Int64) :
    d.Answers d.Holds (integerStep operator l r) := by
  cases operator with
  | add | subtract | multiply => exact answers_exact _
  | divide =>
    rw [integerStep]
    split
    · exact raises_of_ordinary trivial
    · split
      · exact answers_exact _
      · exact holds_atom trivial rfl

/-- Arithmetic gives integers and decimals only. -/
theorem answers_arithmeticStep (operator : ArithmeticOperator) (left right : Value) :
    d.Answers d.Holds (arithmeticStep operator left right) := by
  rw [arithmeticStep.eq_def]
  split
  · exact answers_integerStep operator _ _
  · refine .bind (answers_decimal _) fun l _ => .bind (answers_decimal _) fun r _ => ?_
    exact holds_atom trivial rfl

theorem answers_number {value : Value} (holds : d.Holds value) :
    d.Answers d.Holds (number value) := by
  rw [number]
  split
  · exact holds
  · exact raises_of_ordinary trivial

/-- Operands are taken in from the left. -/
theorem answers_foldlM (operator : ArithmeticOperator) {rest : List Value} {first : Value}
    (holds : d.Holds first) :
    d.Answers d.Holds (rest.foldlM (arithmeticStep operator) first) := by
  induction rest generalizing first with
  | nil => exact holds
  | cons next rest ih =>
    rw [List.foldlM_cons]
    exact .bind (answers_arithmeticStep operator first next) fun _ holds => ih holds

/-- A single operand stays what it is, also a ratio; with several, arithmetic gives integers and
decimals. -/
theorem answers_arithmetic (operator : ArithmeticOperator) {operands : List Value}
    (holds : d.HoldsAll operands) : d.Answers d.Holds (arithmetic operator operands) := by
  rw [arithmetic.eq_def]
  split
  · exact holds_atom trivial rfl
  · exact holds_atom trivial rfl
  · exact holds_atom trivial rfl
  · exact holds_atom trivial rfl
  · exact answers_arithmeticStep _ _ _
  · exact answers_number (holdsAll_cons.mp holds).1
  · exact .bind (answers_number (holdsAll_cons.mp holds).1) fun _ holds =>
      answers_foldlM operator holds

/-- Numbers are compared as integers or decimals, and strings by themselves. -/
theorem answers_order (left right : Value) : d.Answers Anything (order left right) := by
  rw [order.eq_def]
  split
  · trivial
  · trivial
  · refine .bind (answers_decimal _) fun l _ => .bind (answers_decimal _) fun r _ => ?_
    split
    · trivial
    · split
      · trivial
      · split
        · trivial
        · exact raises_of_ordinary trivial

/-- The only fault is to ask for a remainder where there is none. -/
theorem answers_integerOperation (operator : BinaryOperator) (l r : Int64) :
    d.Answers Anything (integerOperation operator l r) := by
  rw [integerOperation.eq_def]
  split
  · rw [remainder]
    split
    · exact raises_of_ordinary trivial
    · trivial
  all_goals trivial

/-- Comparisons give truth values, and the other operators integers. -/
theorem answers_binary (operator : BinaryOperator) (left right : Value) :
    d.Answers d.Holds (binary operator left right) := by
  rw [binary.eq_def]
  split
  · exact holds_atom trivial rfl
  · exact holds_atom trivial rfl
  · exact holds_atom trivial rfl
  · exact .bind (answers_order left right) fun _ _ => holds_atom trivial rfl
  · exact .bind (answers_order left right) fun _ _ => holds_atom trivial rfl
  · exact .bind (answers_order left right) fun _ _ => holds_atom trivial rfl
  · exact .bind (answers_order left right) fun _ _ => holds_atom trivial rfl
  · refine .bind (answers_integer left) fun l _ => .bind (answers_integer right) fun r _ => ?_
    exact .bind (answers_integerOperation _ l r) fun _ _ => holds_atom trivial rfl

theorem answers_unary (operator : UnaryOperator) (operand : Value) :
    d.Answers d.Holds (unary operator operand) := by
  cases operator with
  | not => exact holds_atom trivial rfl
  | bitNot => exact .bind (answers_integer operand) fun _ _ => holds_atom trivial rfl

/-! ### Library procedures -/

/-- Entries are added to an allowed map one by one. -/
theorem answers_conjEntries {entries : List (Value × Value)} {additions : List Value}
    (map : d.Holds (.map entries)) (added : d.HoldsAll additions) :
    d.Answers (fun entries => d.Holds (.map entries)) (conjEntries entries additions) := by
  induction additions generalizing entries with
  | nil => exact map
  | cons addition rest ih =>
    obtain ⟨addedFirst, addedRest⟩ := holdsAll_cons.mp added
    rw [conjEntries]
    refine .bind (answers_elementsOf addedFirst) fun elements holds => ?_
    split
    · rename_i key item
      obtain ⟨holdsKey, holdsItem⟩ := holdsAll_cons.mp holds
      exact ih (holds_insertEntry map holdsKey (holdsAll_cons.mp holdsItem).1) addedRest
    · exact raises_of_ordinary trivial

/-- A collection stays allowed when allowed values are added. -/
theorem answers_conj {collection : Value} {additions : List Value} (holds : d.Holds collection)
    (added : d.HoldsAll additions) : d.Answers d.Holds (conj collection additions) := by
  have reversed : d.HoldsAll additions.reverse :=
    added.subset fun _ member => List.mem_reverse.mp member
  rw [conj.eq_def]
  split
  · exact holds_list reversed
  · exact holds_list (holdsAll_append.mpr ⟨reversed, fun _ member => holds.below member⟩)
  · exact holds_vector (holdsAll_append.mpr ⟨fun _ member => holds.below member, added⟩)
  · exact holds_adjoinAll holds added
  · exact .bind (answers_conjEntries holds added) fun _ map => map
  · exact raises_of_ordinary trivial

/-- An element of a collection is given, or else what is given instead. -/
theorem answers_nth {collection index : Value} {otherwise : Option Value}
    (holds : d.Holds collection)
    (holdsOtherwise : ∀ value, otherwise = some value → d.Holds value) :
    d.Answers d.Holds (nth collection index otherwise) := by
  refine .bind (answers_elementsOf holds) fun elements holdsElements => ?_
  split
  · rename_i i
    cases found : (if i < 0 then none else elements[i.toInt.toNat]?).or otherwise with
    | none =>
      simp only [found]
      exact raises_of_ordinary trivial
    | some value =>
      simp only [found]
      rcases Option.or_eq_some_iff.mp found with taken | ⟨-, given⟩
      · split at taken
        · cases taken
        · exact holdsElements value (List.mem_of_getElem? taken)
      · exact holdsOtherwise value given
  · exact raises_of_ordinary trivial

/-- All elements of all sequences. -/
theorem answers_concat {values : List Value} (holds : d.HoldsAll values) :
    d.Answers d.HoldsAll (concat values) := by
  induction values with
  | nil => exact holdsAll_nil
  | cons value rest ih =>
    obtain ⟨holdsFirst, holdsRest⟩ := holdsAll_cons.mp holds
    refine .bind (answers_elementsOf holdsFirst) fun elements holdsElements => ?_
    exact .bind (ih holdsRest) fun others holdsOthers =>
      holdsAll_append.mpr ⟨holdsElements, holdsOthers⟩

/-- Keys and values in turn are allowed. -/
theorem holds_pairs {values : List Value} (holds : d.HoldsAll values) :
    ∀ entry ∈ pairs values, d.Holds entry.1 ∧ d.Holds entry.2 := by
  fun_induction pairs values with
  | case1 key item rest ih =>
    obtain ⟨holdsKey, holdsOthers⟩ := holdsAll_cons.mp holds
    obtain ⟨holdsItem, holdsRest⟩ := holdsAll_cons.mp holdsOthers
    exact List.forall_mem_cons.mpr ⟨⟨holdsKey, holdsItem⟩, ih holdsRest⟩
  | case2 => exact fun _ member => absurd member List.not_mem_nil

/-- An odd number of keys and values is an ordinary fault. -/
theorem answers_hashMap {args : List Value} (holds : d.HoldsAll args) :
    d.Answers d.Holds (hashMap args) := by
  rw [hashMap]
  split
  · exact holds_mapOf (holds_pairs holds)
  · exact raises_of_ordinary trivial

/-- What names nothing is an ordinary fault. -/
theorem answers_nameText (value : Value) : d.Answers Anything (nameText value) := by
  rw [nameText.eq_def]
  split
  · trivial
  · trivial
  · trivial
  · exact raises_of_ordinary trivial

theorem answers_qualifiedText (qualifier name : Value) :
    d.Answers Anything (qualifiedText qualifier name) := by
  rw [qualifiedText.eq_def]
  split
  · exact answers_nameText name
  · exact .bind (answers_nameText _) fun _ _ => .bind (answers_nameText name) fun _ _ => trivial

theorem answers_baseName (value : Value) : d.Answers d.Holds (baseName value) := by
  rw [baseName.eq_def]
  split
  · exact holds_atom trivial rfl
  · exact holds_atom trivial rfl
  · exact holds_atom trivial rfl
  · exact raises_of_ordinary trivial

theorem answers_qualifierOf (value : Value) : d.Answers d.Holds (qualifierOf value) := by
  rw [qualifierOf.eq_def]
  split
  · split
    · exact holds_atom trivial rfl
    · exact holds_atom trivial rfl
  · split
    · exact holds_atom trivial rfl
    · exact holds_atom trivial rfl
  · exact raises_of_ordinary trivial

theorem answers_gensymStart (value : Value) : d.Answers Anything (gensymStart value) := by
  rw [gensymStart.eq_def]
  split
  · trivial
  · trivial
  · exact raises_of_ordinary trivial

/-- A call that needs no machine. -/
theorem alike_answer {result : Except Fault Value} {evaluation : Evaluation Value}
    (called : answer result = some evaluation) (answers : d.Answers d.Holds result) :
    d.SelfAlike lenient evaluation := by
  cases called
  exact .lift answers.value

/-- A call that makes something of the elements of a sequence. -/
theorem alike_ofElements {value : Value} {f : List Value → Value} {evaluation : Evaluation Value}
    (called : answer ((elementsOf value).map f) = some evaluation) (holds : d.Holds value)
    (makes : ∀ elements, d.HoldsAll elements → d.Holds (f elements)) :
    d.SelfAlike lenient evaluation :=
  alike_answer called ((answers_elementsOf holds).map makes)

/-- A call that makes something of a text. -/
theorem alike_ofText {text : Except Fault String} {f : String → Value}
    {evaluation : Evaluation Value} (called : answer (text.map f) = some evaluation)
    (answers : d.Answers Anything text) (makes : ∀ s, d.Holds (f s)) :
    d.SelfAlike lenient evaluation :=
  alike_answer called (answers.map fun s _ => makes s)

theorem alike_decision {result : Bool} {evaluation : Evaluation Value}
    (called : decision result = some evaluation) : d.SelfAlike lenient evaluation :=
  alike_answer called (holds_atom trivial rfl)

/-- A generated name is a symbol, and its text depends on the counter only. -/
theorem alike_gensym (start : String) :
    d.SelfAlike lenient (do return .symbol (← generateName start)) := by
  refine .bind (.generateName start) fun name other same => ?_
  cases same
  exact .pure ⟨holds_atom trivial rfl, rfl⟩

/-- Every call of a library procedure that makes no calls in turn keeps the discipline. -/
theorem alike_call {applyTo : Value → List Value → Evaluation Value} {procedure : Builtin}
    (single : procedure ≠ .apply) {args : List Value} {evaluation : Evaluation Value}
    (holds : d.HoldsAll args) (called : call? applyTo procedure args = some evaluation) :
    d.SelfAlike lenient evaluation := by
  unfold call? at called
  split at called
  · exact alike_answer called (holds_list holds)
  · exact alike_answer called (holds_vector holds)
  · exact alike_answer called (answers_hashMap holds)
  · exact alike_answer called (holds_setOf holds)
  · refine alike_ofElements called (holdsAll_cons.mp holds).1 (fun elements holds => ?_)
    cases elements with
    | nil => exact holds_atom trivial rfl
    | cons first rest => exact (holdsAll_cons.mp holds).1
  · refine alike_ofElements called (holdsAll_cons.mp holds).1 (fun elements holds => ?_)
    cases found : elements[1]? with
    | none => exact holds_atom trivial rfl
    | some second => exact holds second (List.mem_of_getElem? found)
  · refine alike_ofElements called (holdsAll_cons.mp holds).1 (fun elements holds => ?_)
    exact holds_list (holds.subset fun _ => List.mem_of_mem_tail)
  · refine alike_ofElements called (holdsAll_cons.mp holds).1 (fun elements holds => ?_)
    split
    · exact holds_atom trivial rfl
    · exact holds_list (holds.subset fun _ => List.mem_of_mem_tail)
  · obtain ⟨holdsFirst, holdsRest⟩ := holdsAll_cons.mp holds
    refine alike_ofElements called (holdsAll_cons.mp holdsRest).1 (fun elements holds => ?_)
    exact holds_list (holdsAll_cons.mpr ⟨holdsFirst, holds⟩)
  · obtain ⟨holdsFirst, holdsRest⟩ := holdsAll_cons.mp holds
    exact alike_answer called (answers_conj holdsFirst holdsRest)
  · exact alike_answer called ((answers_concat holds).map fun _ => holds_list)
  · exact alike_ofElements called (holdsAll_cons.mp holds).1 (fun _ _ => holds_atom trivial rfl)
  · obtain ⟨holdsFirst, holdsOthers⟩ := holdsAll_cons.mp holds
    obtain ⟨-, holdsRest⟩ := holdsAll_cons.mp holdsOthers
    refine alike_answer called (answers_nth holdsFirst fun value given => ?_)
    exact holdsRest value (List.mem_of_head? given)
  · exact alike_ofElements called (holdsAll_cons.mp holds).1 (fun _ _ => holds_atom trivial rfl)
  iterate 10 exact alike_decision called
  · exact alike_ofText called (answers_nameText _) (fun _ => holds_atom trivial rfl)
  · exact alike_ofText called (answers_qualifiedText _ _) (fun _ => holds_atom trivial rfl)
  · exact alike_ofText called (answers_nameText _) (fun _ => holds_atom trivial rfl)
  · exact alike_ofText called (answers_qualifiedText _ _) (fun _ => holds_atom trivial rfl)
  · exact alike_answer called (answers_baseName _)
  · exact alike_answer called (answers_qualifierOf _)
  · exact alike_answer called (holds_atom trivial rfl)
  · exact absurd rfl single
  · exact alike_answer called (holdsAll_cons.mp holds).1
  · cases called
    exact alike_gensym _
  · rename_i value _
    cases called
    have starts : (d.comparison lenient).Alike .same (lift (gensymStart value))
        (lift (gensymStart value)) :=
      .lift ((answers_gensymStart value).self fun _ _ => rfl)
    refine .bind starts fun first _ same => ?_
    cases same
    exact alike_gensym first
  · cases called

/-! ### Forms -/

/-- Forms one by one. -/
theorem holdsAll_ofForms {forms : List Form} (each : ∀ form ∈ forms, d.Holds (.ofForm form)) :
    d.HoldsAll (Value.ofForms forms) := by
  induction forms with
  | nil => exact holdsAll_nil
  | cons form rest ih =>
    obtain ⟨first, others⟩ := List.forall_mem_cons.mp each
    exact holdsAll_cons.mpr ⟨first, ih others⟩

theorem holds_ofEntries {entries : List (Form × Form)}
    (each : ∀ entry ∈ entries, d.Holds (.ofForm entry.1) ∧ d.Holds (.ofForm entry.2)) :
    ∀ entry ∈ Value.ofEntries entries, d.Holds entry.1 ∧ d.Holds entry.2 := by
  induction entries with
  | nil => exact fun _ member => absurd member List.not_mem_nil
  | cons entry rest ih =>
    obtain ⟨first, others⟩ := List.forall_mem_cons.mp each
    exact List.forall_mem_cons.mpr ⟨first, ih others⟩

/-- Forms hold no procedures, so as values they are allowed if the ratios in them are. -/
theorem holds_ofForm {form : Form}
    (rationals : ∀ numerator denominator,
      Form.Within Form.parts (.rational numerator denominator) form →
        d.value (.rational numerator denominator)) :
    d.Holds (Value.ofForm form) := by
  induction form using Form.induction_on_parts with
  | step form ih =>
    have below : ∀ part ∈ form.parts, d.Holds (.ofForm part) := fun part member =>
      ih part member fun numerator denominator inside =>
        rationals numerator denominator (.part member inside)
    cases form with
    | rational numerator denominator =>
      exact Value.throughout_iff.mpr ⟨rationals numerator denominator .self, holdsAll_nil⟩
    | list forms => exact holds_list (holdsAll_ofForms below)
    | vector forms => exact holds_vector (holdsAll_ofForms below)
    | set forms => exact holds_setOf (holdsAll_ofForms below)
    | map entries =>
      refine holds_mapOf (holds_ofEntries fun entry member => ?_)
      obtain ⟨key, item⟩ := Form.mem_parts_map member
      exact ⟨below _ key, below _ item⟩
    | _ => exact holds_atom trivial rfl

end ScriptLisp.Eval.Discipline
