import ScriptLisp.Node.Basic
import ScriptLisp.Proofs.Text.Delimiters

/-!
The variables that a node names: references, definitions, parameters, bindings, attributes,
protocols, methods and properties, at every depth. They are the texts that generation takes over
as they are; a variable is clean if none of them can disturb the text around it, and inert if at
most its line breaks can.
-/

namespace ScriptLisp

def Params.names (params : Params) : List Variable :=
  params.fixed ++ params.rest.toList

namespace Node

mutual

/-- The variables that a node names, in the order written. -/
def names : Node → List Variable
  | .nil _ | .boolean _ | .integer _ | .rational _ _ | .decimal _ | .string _ | .keyword _
  | .symbol _ => []
  | .vector nodes | .set nodes | .list nodes => namesOfAll nodes
  | .map entries => namesOfEntries entries
  | .reference name => [name]
  | .definition name value => name :: names value
  | .conditional branches otherwise => namesOfEntries branches ++ names otherwise
  | .lambda function => namesOfLambda function
  | .block body => namesOfAll body
  | .loop bindings body => namesOfBindings bindings ++ namesOfAll body
  | .recursionPoint args => namesOfAll args
  | .exceptionHandler body handler cleanup =>
    namesOfAll body ++ namesOfHandler handler ++ namesOfCleanup cleanup
  | .exception expression => names expression
  | .classInstantiation constructor args => names constructor ++ namesOfAll args
  | .methodResolution object method args => method :: names object ++ namesOfAll args
  | .propertyResolution object property => property :: names object
  | .assignment target value => names target ++ names value
  | .application invocable args _ => names invocable ++ namesOfAll args
  | .binary _ left right => names left ++ names right
  | .unary _ operand => names operand
  | .arithmetic _ args => namesOfAll args
  | .macroDefinition _ function => namesOfLambda function
  | .typeDefinition name attributes protocols methods =>
    name :: attributes ++ protocols ++ namesOfMethods methods
  | .protocolDefinition name protocols methods =>
    name :: protocols ++ namesOfMethods methods

def namesOfAll : List Node → List Variable
  | [] => []
  | node :: rest => names node ++ namesOfAll rest

def namesOfEntries : List (Node × Node) → List Variable
  | [] => []
  | (first, second) :: rest => names first ++ names second ++ namesOfEntries rest

def namesOfBindings : List (Variable × Node) → List Variable
  | [] => []
  | (name, init) :: rest => name :: names init ++ namesOfBindings rest

/-- The variables of a handler, if there is one. -/
def namesOfHandler : Option (Variable × List Node) → List Variable
  | some (binding, body) => binding :: namesOfAll body
  | none => []

/-- The variables of a part that always runs, if there is one. -/
def namesOfCleanup : Option (List Node) → List Variable
  | some body => namesOfAll body
  | none => []

def namesOfLambda : Lambda → List Variable
  | .single (.mk params body) => params.names ++ namesOfAll body
  | .multi clauses => namesOfClauses clauses

def namesOfClauses : List Clause → List Variable
  | [] => []
  | .mk params body :: rest => params.names ++ namesOfAll body ++ namesOfClauses rest

def namesOfMethods : List Method → List Variable
  | [] => []
  | .mk name params body :: rest =>
    name :: params.names ++ namesOfAll body ++ namesOfMethods rest

end

theorem mem_namesOfAll {nodes : List Node} {v : Variable} :
    v ∈ namesOfAll nodes ↔ ∃ node ∈ nodes, v ∈ names node := by
  induction nodes with
  | nil => simp [namesOfAll]
  | cons node nodes ih => simp [namesOfAll, ih]

theorem mem_namesOfEntries {entries : List (Node × Node)} {v : Variable} :
    v ∈ namesOfEntries entries ↔ ∃ entry ∈ entries, v ∈ names entry.1 ∨ v ∈ names entry.2 := by
  induction entries with
  | nil => simp [namesOfEntries]
  | cons entry entries ih => simp [namesOfEntries, ih, or_assoc]

end Node

open Delimiters in
/-- A variable whose qualifier and name are texts without quotes, brackets, semicolons and line
breaks, and not empty. -/
structure Variable.IsClean (v : Variable) : Prop where
  base_ne_empty : v.base ≠ ""
  base_plain : Plain v.base
  qualifier_ne_empty : ∀ qualifier ∈ v.qualifier, qualifier ≠ ""
  qualifier_plain : ∀ qualifier ∈ v.qualifier, Plain qualifier

instance (v : Variable) : Decidable v.IsClean :=
  decidable_of_iff (v.base ≠ "" ∧ Delimiters.Plain v.base ∧
      (∀ qualifier ∈ v.qualifier, qualifier ≠ "") ∧
      ∀ qualifier ∈ v.qualifier, Delimiters.Plain qualifier)
    ⟨fun ⟨base, plain, qualifier, plains⟩ => ⟨base, plain, qualifier, plains⟩,
      fun clean => ⟨clean.1, clean.2, clean.3, clean.4⟩⟩

/-- Parameters all of which are clean. -/
def Params.IsClean (params : Params) : Prop :=
  ∀ v ∈ params.names, v.IsClean

/-- A node all of whose variables are clean. -/
def Node.IsClean (node : Node) : Prop :=
  ∀ v ∈ node.names, v.IsClean

instance (node : Node) : Decidable node.IsClean :=
  inferInstanceAs (Decidable (∀ v ∈ node.names, v.IsClean))

open Delimiters in
/-- A variable whose qualifier and name are texts without quotes, brackets and semicolons, and not
empty. -/
structure Variable.IsInert (v : Variable) : Prop where
  base_ne_empty : v.base ≠ ""
  base_inert : Inert v.base
  qualifier_ne_empty : ∀ qualifier ∈ v.qualifier, qualifier ≠ ""
  qualifier_inert : ∀ qualifier ∈ v.qualifier, Inert qualifier

instance (v : Variable) : Decidable v.IsInert :=
  decidable_of_iff (v.base ≠ "" ∧ Delimiters.Inert v.base ∧
      (∀ qualifier ∈ v.qualifier, qualifier ≠ "") ∧
      ∀ qualifier ∈ v.qualifier, Delimiters.Inert qualifier)
    ⟨fun ⟨base, inert, qualifier, inerts⟩ => ⟨base, inert, qualifier, inerts⟩,
      fun inert => ⟨inert.1, inert.2, inert.3, inert.4⟩⟩

/-- Parameters all of which are inert. -/
def Params.IsInert (params : Params) : Prop :=
  ∀ v ∈ params.names, v.IsInert

/-- A node all of whose variables are inert. -/
def Node.IsInert (node : Node) : Prop :=
  ∀ v ∈ node.names, v.IsInert

instance (node : Node) : Decidable node.IsInert :=
  inferInstanceAs (Decidable (∀ v ∈ node.names, v.IsInert))

theorem Variable.IsClean.inert {v : Variable} (clean : v.IsClean) : v.IsInert where
  base_ne_empty := clean.base_ne_empty
  base_inert := clean.base_plain.inert
  qualifier_ne_empty := clean.qualifier_ne_empty
  qualifier_inert := fun qualifier qualified => (clean.qualifier_plain qualifier qualified).inert

/-- Clean names are inert: they hold characters of names only. -/
theorem Node.IsClean.inert {node : Node} (clean : node.IsClean) : node.IsInert :=
  fun v named => (clean v named).inert

namespace Variable

/-- The parts between dots hold no characters of their own. -/
theorem mem_of_mem_splitDots {cs part : List Char} {c : Char} (listed : part ∈ splitDots cs)
    (mem : c ∈ part) : c ∈ cs := by
  fun_induction splitDots cs generalizing part with
  | case1 => simp_all
  | case2 cs ih =>
    rcases List.mem_cons.mp listed with rfl | listed
    · cases mem
    · exact List.mem_cons_of_mem _ (ih listed mem)
  | case3 d cs _ first others _ ih =>
    rcases List.mem_cons.mp listed with rfl | listed
    · rcases List.mem_cons.mp mem with rfl | mem
      · exact List.mem_cons_self
      · exact List.mem_cons_of_mem _ (ih (by simp_all) mem)
    · exact List.mem_cons_of_mem _ (ih (by simp_all) mem)
  | case4 d cs _ _ => simp_all

/-- A text without dots is one segment. -/
theorem splitDots_ne_nil (cs : List Char) : splitDots cs ≠ [] := by
  fun_cases splitDots cs <;> simp

/-- A qualifier always is some steps, though they may be empty. -/
theorem segments_eq_nil_iff {v : Variable} : v.segments = [] ↔ v.qualifier = none := by
  unfold segments
  split
  · next qualifier qualified => simp [splitDots_ne_nil, qualified]
  · next unqualified => simp [unqualified]

/-- The steps into a qualifier hold no characters of their own. -/
theorem mem_of_mem_segments {v : Variable} {segment : String} {c : Char}
    (listed : segment ∈ v.segments) (mem : c ∈ segment.toList) :
    ∃ qualifier ∈ v.qualifier, c ∈ qualifier.toList := by
  unfold segments at listed
  split at listed
  · next qualifier qualified =>
    obtain ⟨part, inParts, rfl⟩ := List.mem_map.mp listed
    rw [String.toList_ofList] at mem
    exact ⟨qualifier, qualified, mem_of_mem_splitDots inParts mem⟩
  · cases listed

open Delimiters in
/-- The steps into the qualifier of a clean variable are plain. -/
theorem IsClean.segments_plain {v : Variable} (clean : v.IsClean) :
    ∀ segment ∈ v.segments, Plain segment := by
  intro segment listed c mem
  obtain ⟨qualifier, qualified, mem⟩ := mem_of_mem_segments listed mem
  exact clean.qualifier_plain qualifier qualified c mem

open Delimiters in
/-- The steps into the qualifier of an inert variable are inert. -/
theorem IsInert.segments_inert {v : Variable} (inert : v.IsInert) :
    ∀ segment ∈ v.segments, Inert segment := by
  intro segment listed c mem
  obtain ⟨qualifier, qualified, mem⟩ := mem_of_mem_segments listed mem
  exact inert.qualifier_inert qualifier qualified c mem

end Variable

open Delimiters in
theorem Params.IsClean.base_plain_of_fixed {params : Params} (clean : params.IsClean) :
    ∀ v ∈ params.fixed, Plain v.base :=
  fun v mem => (clean v (List.mem_append_left _ mem)).base_plain

open Delimiters in
theorem Params.IsClean.base_plain_of_rest {params : Params} {rest : Variable}
    (clean : params.IsClean) (variadic : params.rest = some rest) : Plain rest.base :=
  (clean rest (List.mem_append_right _ (by simp [variadic]))).base_plain

open Delimiters in
theorem Params.IsInert.base_inert_of_fixed {params : Params} (inert : params.IsInert) :
    ∀ v ∈ params.fixed, Inert v.base :=
  fun v mem => (inert v (List.mem_append_left _ mem)).base_inert

open Delimiters in
theorem Params.IsInert.base_inert_of_rest {params : Params} {rest : Variable}
    (inert : params.IsInert) (variadic : params.rest = some rest) : Inert rest.base :=
  (inert rest (List.mem_append_right _ (by simp [variadic]))).base_inert

end ScriptLisp
