import ScriptLisp.Proofs.Analysis.Quotation
import ScriptLisp.Proofs.Target.DataStyle
import ScriptLisp.Proofs.Target.RubyText

/-!
Data in Ruby. Symbols and collections are made by classes of a library, by whose names they are told
apart; keywords are symbol literals, plain or quoted, and no plain one starts like a quoted one.

* `dataStyle`, `dataStyle_lawful`: the style of data, and that it can be taken apart.
* `emit_data`: the text of a node that is data is written in this style.
-/

namespace ScriptLisp.Ruby

open Target

/-! ### Literals -/

/-- What a backslash and a character after it stand for: only quotes and backslashes are escaped. -/
def escaped : Char → List Char
  | '\\' => ['\\']
  | '\'' => ['\'']
  | c => ['\\', c]

/-- A character can be read back from how it is written between quotes. -/
theorem unescapes (c : Char) : Unescapes escaped quotedChar c := by
  fun_cases quotedChar c with
  | case1 => exact .inr ⟨'\\', rfl, rfl⟩
  | case2 => exact .inr ⟨'\'', rfl, rfl⟩
  | case3 _ backslash quote =>
    refine .inl ⟨?_, quote, backslash⟩
    rw [quotedChar] <;> assumption

/-- Where a string literal ends does not depend on what follows it. -/
theorem quoted_cuts (text : String) :
    Cuts (fun text => (quoted text).toList) (fun _ => True) text := by
  simpa only [quoted, String.toList_ofList] using cuts_quoted unescapes text

theorem toList_quoted (text : String) :
    (quoted text).toList = '\'' :: (text.toList.flatMap quotedChar ++ ['\'']) :=
  String.toList_ofList

/-! ### Keywords and symbols -/

/-- The text of a keyword: the text that it was read from, plain or quoted. -/
theorem keywordText_parse (text : String) :
    keywordText (Name.parse text) = ":" ++ text ∧ isPlainSymbol text = true ∨
      keywordText (Name.parse text) = ":" ++ quoted text := by
  unfold keywordText
  split
  · rename_i plain
    obtain ⟨unqualified, plain⟩ := Bool.and_eq_true_iff.mp plain
    have whole : (Name.parse text).base = text := by
      have display := Name.display_parse text
      rw [Name.display, Option.isNone_iff_eq_none.mp unqualified] at display
      exact display
    rw [whole] at plain ⊢
    exact .inl ⟨rfl, plain⟩
  · rw [Name.display_parse]
    exact .inr rfl

/-- A name that needs no quotes goes on up to its end. -/
theorem takeWhile_of_isPlainSymbol {name : String} (plain : isPlainSymbol name = true)
    {rest : List Char} (stopped : Stopped rest) :
    (name.toList ++ rest).takeWhile goesOn = name.toList := by
  have inside : ∀ c ∈ name.toList, goesOn c = true := by
    intro c member
    rcases mem_of_isPlainSymbol plain member with inner | rfl | rfl
    · simp [goesOn, inner]
    · rfl
    · rfl
  rw [List.takeWhile_append_of_pos inside, ← List.nil_append rest, stopped.takeWhile_append,
    List.takeWhile_nil, List.append_nil]

/-- A name that needs no quotes does not start with one. -/
theorem ne_quoted_of_isPlainSymbol {name text : String} (plain : isPlainSymbol name = true)
    {rest others : List Char} (stopped : Stopped rest) :
    name.toList ++ rest ≠ (quoted text).toList ++ others := by
  intro same
  have empty := takeWhile_of_isPlainSymbol plain stopped
  rw [same, toList_quoted, List.cons_append, List.takeWhile_cons_of_neg (by decide)] at empty
  rw [isPlainSymbol, ← empty] at plain
  cases plain

/-- Keywords, plain or quoted. -/
theorem keywordText_cuts (text : String) :
    Cuts (fun text => (keywordText (Name.parse text)).toList) (fun _ => True) text := by
  intro other _ rest others stopped stoppedToo same
  dsimp only at same
  rcases keywordText_parse text with ⟨written, plain⟩ | written
  all_goals
    rcases keywordText_parse other with ⟨writtenToo, plainToo⟩ | writtenToo
    all_goals simp only [written, writtenToo, String.toList_append, List.append_assoc,
      List.append_cancel_left_eq] at same
  · have names : text.toList = other.toList := by
      rw [← takeWhile_of_isPlainSymbol plain stopped, same,
        takeWhile_of_isPlainSymbol plainToo stoppedToo]
    rw [names] at same
    exact ⟨String.toList_inj.mp names, List.append_cancel_left same⟩
  · exact absurd same (ne_quoted_of_isPlainSymbol plain stopped)
  · exact absurd same.symm (ne_quoted_of_isPlainSymbol plainToo stoppedToo)
  · exact quoted_cuts text other trivial rest others stopped stoppedToo same

/-- The first argument that constructs a symbol. -/
def qualifierText : Option String → String
  | some qualifier => quoted qualifier
  | none => "nil"

/-- A missing qualifier has a text of its own that no qualifier has. -/
theorem qualifierText_cuts (qualifier : Option String) :
    Cuts (fun qualifier => (qualifierText qualifier).toList) (fun _ => True) qualifier := by
  intro other _ rest others stopped stoppedToo same
  cases qualifier with
  | none =>
    cases other with
    | none => exact ⟨rfl, List.append_cancel_left same⟩
    | some other =>
      simp [qualifierText, toList_quoted] at same
  | some qualifier =>
    cases other with
    | none => simp [qualifierText, toList_quoted] at same
    | some other =>
      obtain ⟨rfl, follows⟩ := quoted_cuts qualifier other trivial _ _ stopped stoppedToo same
      exact ⟨rfl, follows⟩

/-- The arguments that construct a symbol, as read from its text. -/
def symbolParts (text : String) : Option String × String :=
  ((Name.parse text).qualifier, (Name.parse text).base)

/-- A name is determined by its qualifier and its base. -/
theorem symbolParts_injective : Function.Injective symbolParts := by
  intro text other same
  obtain ⟨qualifiers, bases⟩ := Prod.mk.inj same
  refine Name.parse_injective ?_
  cases parsed : Name.parse text
  cases parsedToo : Name.parse other
  simp_all

/-! ### The style -/

/-- The kind of data that a class of the library is for, by the start of its name. -/
def constructedKind? : List Char → Option String
  | [] => none
  | c :: cs =>
    match c with
    | 'L' => some "list"
    | 'V' => some "vector"
    | 'M' => some "map"
    | 'S' => some (if cs.head? = some 'y' then "symbol" else "set")
    | _ => none

/-- The kind of data that a text starts with. -/
def dataKind? : List Char → Option String
  | [] => none
  | c :: cs =>
    match c with
    | 'n' => some "nil"
    | 't' | 'f' => some "boolean"
    | '(' => some "integer"
    | 'R' => some "rational"
    | '\'' => some "string"
    | ':' => some "keyword"
    | 'W' => constructedKind? (cs.drop "S::".length)
    | digit => if digit.isDigit then some "integer" else none

/-- Only integers start with a digit. -/
theorem dataKind?_digit {c : Char} (digit : c.isDigit = true) (cs : List Char) :
    dataKind? (c :: cs) = some "integer" := by
  simp only [dataKind?]
  split <;> simp_all

/-- How data is written. -/
def dataStyle : DataStyle where
  nil := "nil".toList
  rational ratio := "Rational(".toList ++
    (Integer.chars ratio.1.toInt ++ ([',', ' '] ++ Integer.chars ratio.2.toInt) ++ [')'])
  string text := (quoted text).toList
  keyword text := (keywordText (Name.parse text)).toList
  symbol text := "WS::Symbol.new(".toList ++ ((qualifierText (symbolParts text).1).toList ++
    ([',', ' '] ++ (quoted (symbolParts text).2).toList) ++ [')'])
  list := ⟨"WS::List[".toList, ']', []⟩
  vector := ⟨"WS::Vector[".toList, ']', []⟩
  set := ⟨"WS::Set[".toList, ']', []⟩
  map := ⟨"WS::Map[".toList, ']', []⟩
  arrow := [' ', '=', '>', ' ']
  kindAt? := dataKind?

/-- The first characters of a text tell its kind, whatever follows the text. -/
theorem dataStyle_kind {form : Form} (free : form.DecimalFree) {rest : List Char} :
    dataStyle.kindAt? (dataStyle.chars form ++ rest) = some form.kind := by
  cases form with
  | decimal d => exact absurd .self (free d)
  | boolean b =>
    rw [DataStyle.chars]
    cases b <;> rfl
  | integer i =>
    rw [DataStyle.chars]
    rcases integerText_cases i with ⟨d, ds, starts, digit, _⟩ | ⟨ds, written, _⟩
    · rw [starts]
      exact dataKind?_digit digit _
    · rw [written]
      rfl
  | string s =>
    simp only [DataStyle.chars, dataStyle, toList_quoted]
    rfl
  | keyword k =>
    simp only [DataStyle.chars, dataStyle]
    rcases keywordText_parse k with ⟨written, _⟩ | written
    · rw [written]
      simp [dataKind?, Form.kind]
    · rw [written]
      simp [dataKind?, Form.kind]
  | _ =>
    rw [DataStyle.chars]
    rfl

/-- Every shape of data can be read back, so that different data have different texts. -/
theorem dataStyle_lawful : dataStyle.Lawful where
  kind free _ _ := dataStyle_kind free
  rational ratio := by
    have inside := Cuts.pair [',', ' '] (fun _ => .cons rfl) (cuts_chars ratio.1)
      (cuts_chars ratio.2)
    refine ((inside.closed [')'] fun _ => .cons rfl).opened "Rational(".toList).mono fun _ _ => ?_
    exact ⟨trivial, trivial⟩
  string := by simpa only [dataStyle] using quoted_cuts
  keyword := by simpa only [dataStyle] using keywordText_cuts
  symbol text := by
    have parts := Cuts.pair [',', ' '] (fun _ => .cons rfl)
      (qualifierText_cuts (symbolParts text).1) (quoted_cuts (symbolParts text).2)
    have inside := (parts.closed [')'] fun _ => .cons rfl).opened "WS::Symbol.new(".toList
    exact (inside.comap symbolParts_injective).mono fun _ _ => ⟨trivial, trivial⟩
  list := ⟨rfl, by decide, fun _ => rfl⟩
  vector := ⟨rfl, by decide, fun _ => rfl⟩
  set := ⟨rfl, by decide, fun _ => rfl⟩
  map := ⟨rfl, by decide, fun _ => rfl⟩
  arrow _ := .cons rfl

/-! ### Texts -/

theorem text_rational (n d : Int64) :
    dataStyle.text (.rational n d) =
      "Rational(" ++ Integer.text n ++ ", " ++ Integer.text d ++ ")" := by
  apply String.toList_inj.mp
  rw [DataStyle.toList_text, DataStyle.chars]
  simp [dataStyle, Integer.text]

theorem text_symbol (name : String) :
    dataStyle.text (.symbol name) = symbolText (Name.parse name) := by
  apply String.toList_inj.mp
  rw [DataStyle.toList_text, DataStyle.chars]
  unfold symbolText
  split
  · next qualified => simp [dataStyle, symbolParts, qualifierText, qualified]
  · next unqualified => simp [dataStyle, symbolParts, qualifierText, unqualified]

theorem text_list (forms : List Form) :
    dataStyle.text (.list forms) = "WS::List[" ++ commas (forms.map dataStyle.text) ++ "]" :=
  DataStyle.text_around (by rw [DataStyle.chars]) (by simp [dataStyle]) (by simp [dataStyle])

theorem text_vector (forms : List Form) :
    dataStyle.text (.vector forms) = "WS::Vector[" ++ commas (forms.map dataStyle.text) ++ "]" :=
  DataStyle.text_around (by rw [DataStyle.chars]) (by simp [dataStyle]) (by simp [dataStyle])

theorem text_set (forms : List Form) :
    dataStyle.text (.set forms) = "WS::Set[" ++ commas (forms.map dataStyle.text) ++ "]" :=
  DataStyle.text_around (by rw [DataStyle.chars]) (by simp [dataStyle]) (by simp [dataStyle])

theorem text_map (entries : List (Form × Form)) :
    dataStyle.text (.map entries) = "WS::Map[" ++ commas (entries.map fun entry =>
      dataStyle.text entry.1 ++ " => " ++ dataStyle.text entry.2) ++ "]" := by
  apply String.toList_inj.mp
  rw [DataStyle.toList_text, DataStyle.chars,
    dataStyle.map.toList_around (by simp [dataStyle]) (by simp [dataStyle]), List.map_map]
  congr 2
  funext entry
  simp [DataStyle.toList_text, dataStyle]

/-! ### Nodes -/

mutual

/-- A node that is data is written in the style of data. -/
theorem emit_data {form : Form} {node : Node} (quotes : Quotes form node) :
    emit node = .ok (dataStyle.text form) := by
  match quotes with
  | .nil _ =>
    rw [emit, ensureSupported_bind rfl, DataStyle.text, DataStyle.chars]
    rfl
  | .boolean literal =>
    rw [emit, ensureSupported_bind rfl, DataStyle.text, DataStyle.chars]
    cases literal.value <;> rfl
  | .integer literal =>
    rw [emit, ensureSupported_bind rfl, DataStyle.text, DataStyle.chars, String.ofList_toList]
    rfl
  | .rational n d =>
    rw [emit, ensureSupported_bind rfl, text_rational]
    rfl
  | .decimal d =>
    rw [emit, ensureSupported_bind rfl, DataStyle.text, DataStyle.chars, String.ofList_toList]
    rfl
  | .string literal =>
    rw [emit, ensureSupported_bind rfl, DataStyle.text, DataStyle.chars]
    simp only [dataStyle, String.ofList_toList]
    rfl
  | .keyword _ name =>
    rw [emit, ensureSupported_bind rfl, DataStyle.text, DataStyle.chars]
    simp only [dataStyle, String.ofList_toList]
    rfl
  | .symbol _ name =>
    rw [emit, ensureSupported_bind rfl, text_symbol]
    rfl
  | .list each =>
    rw [emit, ensureSupported_bind rfl, emitAll_data each, text_list]
    rfl
  | .vector each =>
    rw [emit, ensureSupported_bind rfl, emitAll_data each, text_vector]
    rfl
  | .set each =>
    rw [emit, ensureSupported_bind rfl, emitAll_data each, text_set]
    rfl
  | .map each =>
    rw [emit, ensureSupported_bind rfl, emitEntries_data each, text_map]
    rfl

/-- Elements of data, each by `emit_data`. -/
theorem emitAll_data {forms : List Form} {nodes : List Node} (quotes : QuotesAll forms nodes) :
    emitAll nodes = .ok (forms.map dataStyle.text) := by
  match quotes with
  | .nil =>
    rw [emitAll, List.map_nil]
    rfl
  | .cons first rest =>
    rw [emitAll, emit_data first, emitAll_data rest]
    rfl

/-- An arrow stands between a key and its value. -/
theorem emitEntries_data {entries : List (Form × Form)} {nodes : List (Node × Node)}
    (quotes : QuotesEntries entries nodes) :
    emitEntries nodes = .ok (entries.map fun entry =>
      dataStyle.text entry.1 ++ " => " ++ dataStyle.text entry.2) := by
  match quotes with
  | .nil =>
    rw [emitEntries, List.map_nil]
    rfl
  | .cons first second rest =>
    rw [emitEntries, emit_data first, emit_data second, emitEntries_data rest]
    rfl

end

end ScriptLisp.Ruby
