import ScriptLisp.Proofs.Analysis.Acceptance
import ScriptLisp.Proofs.Intern

/-!
Quotations are data. A quoted form becomes a node that has the same structure and the same literals
at every depth, in any session where its head names no macro; nothing in it is looked up, expanded
or refused.

* `Quotes`: a node is the data that a form is.
* `decides_data`: every form becomes such a node.
* `analyze_quote`: so does its quotation, as code.
-/

namespace ScriptLisp

-- One relation for forms and one for each kind of sequence that forms hold.
mutual

/-- A node is the data that a form is. -/
inductive Quotes : Form → Node → Prop
  | nil (literal : Interned Unit) : Quotes .nil (.nil literal)
  | boolean (literal : Interned Bool) : Quotes (.boolean literal.value) (.boolean literal)
  | integer (literal : Interned Int64) : Quotes (.integer literal.value) (.integer literal)
  | rational (numerator denominator : Int64) :
      Quotes (.rational numerator denominator) (.rational numerator denominator)
  | decimal (value : Float) : Quotes (.decimal value) (.decimal value)
  | string (literal : Interned String) : Quotes (.string literal.value) (.string literal)
  | keyword (index : Nat) (text : String) :
      Quotes (.keyword text) (.keyword ⟨index, Name.parse text⟩)
  | symbol (index : Nat) (text : String) :
      Quotes (.symbol text) (.symbol ⟨index, Name.parse text⟩)
  | list {forms : List Form} {nodes : List Node} (each : QuotesAll forms nodes) :
      Quotes (.list forms) (.list nodes)
  | vector {forms : List Form} {nodes : List Node} (each : QuotesAll forms nodes) :
      Quotes (.vector forms) (.vector nodes)
  | set {forms : List Form} {nodes : List Node} (each : QuotesAll forms nodes) :
      Quotes (.set forms) (.set nodes)
  | map {entries : List (Form × Form)} {nodes : List (Node × Node)}
      (each : QuotesEntries entries nodes) : Quotes (.map entries) (.map nodes)

/-- Nodes are the data that forms are, one by one. -/
inductive QuotesAll : List Form → List Node → Prop
  | nil : QuotesAll [] []
  | cons {form : Form} {node : Node} {forms : List Form} {nodes : List Node}
      (first : Quotes form node) (rest : QuotesAll forms nodes) :
      QuotesAll (form :: forms) (node :: nodes)

/-- Keys and values are the data that keys and values are, one by one. -/
inductive QuotesEntries : List (Form × Form) → List (Node × Node) → Prop
  | nil : QuotesEntries [] []
  | cons {key item : Form} {keyNode itemNode : Node} {entries : List (Form × Form)}
      {nodes : List (Node × Node)} (first : Quotes key keyNode) (second : Quotes item itemNode)
      (rest : QuotesEntries entries nodes) :
      QuotesEntries ((key, item) :: entries) ((keyNode, itemNode) :: nodes)

end

namespace Analysis

open Session

variable {kept : Invariant} {certain : Prop}

/-- Taking an instance gives one of the value that is asked for. -/
theorem decides_taken {α : Type} {take : InternTable → Interned α × InternTable}
    {wrap : α → Literal} {asked : α}
    (gives : ∀ table : InternTable, table.Gives wrap asked (take table)) :
    Decides kept certain True (fun interned => interned.value = asked) (intern take) := by
  intro session holds
  exact ⟨kept.interned take holds, fun _ => .accepts trivial (gives session.interned).value⟩

mutual

/-- Every form becomes the data that it is. -/
theorem decides_data (form : Form) : Decides kept certain True (Quotes form) (quoted form) := by
  match form with
  | .nil => exact (decides_taken InternTable.gives_nil).returning fun _ literal _ => .nil literal
  | .boolean b =>
    refine (decides_taken (·.gives_boolean b)).returning fun _ literal taken => ?_
    exact taken ▸ .boolean literal
  | .integer i =>
    refine (decides_taken (·.gives_integer i)).returning fun _ literal taken => ?_
    exact taken ▸ .integer literal
  | .string s =>
    refine (decides_taken (·.gives_string s)).returning fun _ literal taken => ?_
    exact taken ▸ .string literal
  | .keyword text =>
    refine (decides_taken (·.gives_keyword (Name.parse text))).returning fun _ literal taken => ?_
    obtain ⟨index, _⟩ := literal
    cases taken
    exact .keyword index text
  | .symbol text =>
    refine (decides_taken (·.gives_symbol (Name.parse text))).returning fun _ literal taken => ?_
    obtain ⟨index, _⟩ := literal
    cases taken
    exact .symbol index text
  | .rational n d => exact .pure trivial fun _ => .rational n d
  | .decimal d => exact .pure trivial fun _ => .decimal d
  | .list forms => exact (decides_allData forms).returning fun _ _ each => .list each
  | .vector forms => exact (decides_allData forms).returning fun _ _ each => .vector each
  | .set forms => exact (decides_allData forms).returning fun _ _ each => .set each
  | .map entries => exact (decides_entryData entries).returning fun _ _ each => .map each

theorem decides_allData (forms : List Form) :
    Decides kept certain True (QuotesAll forms) (quotedAll forms) := by
  match forms with
  | [] => exact .pure trivial fun _ => .nil
  | form :: rest =>
    refine (decides_data form).after fun node first => ?_
    exact (decides_allData rest).returning fun sure nodes others => .cons (first sure) others

theorem decides_entryData (entries : List (Form × Form)) :
    Decides kept certain True (QuotesEntries entries) (quotedEntries entries) := by
  match entries with
  | [] => exact .pure trivial fun _ => .nil
  | (key, item) :: rest =>
    refine (decides_data key).after fun keyNode first => ?_
    refine (decides_data item).after fun itemNode second => ?_
    exact (decides_entryData rest).returning fun sure nodes others =>
      .cons (first sure) (second sure) others

end

/-! ### Quotations as code -/

/-- Where `quote` is no macro, a quotation becomes the data of its form, and the session still
compiles for the same target. -/
theorem analyze_quote (fuel : Nat) (form : Form) {session : Session}
    (unknown : session.registry.find? "quote" = none) :
    ∃ node after, analyze (fuel + 2) form.quote session = (.ok node, after) ∧
      Quotes form node ∧ after.target = session.target := by
  let sameTarget : Invariant :=
    { holds := fun after => after.target = session.target, interned := fun _ same => same }
  have expanded : expandUse (fuel + 1) form.quote session = (.ok none, session) := by
    refine expandUse_of_unknown_head (fuel + 1) fun head given => ?_
    cases given
    exact unknown
  have understood : analyze (fuel + 2) form.quote session = quoted form session := by
    rw [analyze_run, expanded]
    rfl
  have decided : Decides sameTarget True True (Quotes form) (quoted form) := decides_data form
  obtain ⟨target, verdict⟩ := decided session rfl
  rw [understood]
  rcases outcome : quoted form session with ⟨ending, after⟩
  rw [outcome] at target verdict
  cases verdict trivial with
  | accepts _ given => exact ⟨_, after, rfl, given, target⟩
  | rejects fails _ => exact absurd trivial fails

end Analysis

end ScriptLisp
