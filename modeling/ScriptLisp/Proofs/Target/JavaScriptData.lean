import ScriptLisp.Proofs.Analysis.Quotation
import ScriptLisp.Proofs.Target.DataStyle
import ScriptLisp.Proofs.Target.JavaScriptTotal

/-!
Data in JavaScript. Keywords, symbols and collections are calls of a library, by whose names they
are told apart; ratios are divisions in parentheses. The keys and values of a map are arguments in
turn.

* `dataStyle`, `dataStyle_lawful`: the style of data, and that it can be taken apart.
* `textOf_data`: the text of a node that is data is written in this style.
-/

namespace ScriptLisp.JavaScript

open Target

/-! ### Literals -/

/-- What a character after a backslash stands for. -/
def escaped : Char → List Char
  | 'n' => ['\n']
  | 'r' => ['\r']
  | 't' => ['\t']
  | c => [c]

/-- A character can be read back from how it is written between quotes. -/
theorem unescapes (c : Char) : Unescapes escaped quotedChar c := by
  fun_cases quotedChar c with
  | case1 => exact .inr ⟨'\\', rfl, rfl⟩
  | case2 => exact .inr ⟨'\'', rfl, rfl⟩
  | case3 => exact .inr ⟨'n', rfl, rfl⟩
  | case4 => exact .inr ⟨'r', rfl, rfl⟩
  | case5 => exact .inr ⟨'t', rfl, rfl⟩
  | case6 _ backslash quote lineFeed carriageReturn tab =>
    refine .inl ⟨?_, quote, backslash⟩
    rw [quotedChar] <;> assumption

/-- Where a string literal ends does not depend on what follows it. -/
theorem quoted_cuts (text : String) :
    Cuts (fun text => (quoted text).toList) (fun _ => True) text := by
  simpa only [quoted, String.toList_ofList] using cuts_quoted unescapes text

/-- The arguments that construct a keyword or symbol, up to the end of the call. -/
theorem nameText_cuts (name : Name) :
    Cuts (fun name => (nameText name).toList ++ [')']) (fun _ => True) name := by
  rintro other - rest others - - same
  -- After the first literal stands a comma exactly if it is a qualifier.
  have parted : ∀ {first second : String} {c d : Char} {cs ds : List Char},
      goesOn c = false → goesOn d = false →
      (quoted first).toList ++ c :: cs = (quoted second).toList ++ d :: ds →
      first = second ∧ c = d ∧ cs = ds := by
    intro first second c d cs ds bare bareToo texts
    obtain ⟨rfl, follows⟩ := quoted_cuts first second trivial _ _ (.cons bare) (.cons bareToo) texts
    exact ⟨rfl, List.cons.inj follows⟩
  obtain ⟨_ | qualifier, base⟩ := name
  all_goals
    obtain ⟨_ | qualifier', base'⟩ := other
    all_goals simp only [nameText, String.toList_append, String.reduceToList, List.append_assoc,
      List.cons_append, List.nil_append] at same
  · obtain ⟨rfl, -, rfl⟩ := parted rfl rfl same
    exact ⟨rfl, rfl⟩
  · obtain ⟨-, ⟨⟩, -⟩ := parted rfl rfl same
  · obtain ⟨-, ⟨⟩, -⟩ := parted rfl rfl same
  · obtain ⟨rfl, -, inner⟩ := parted rfl rfl same
    obtain ⟨rfl, -, rfl⟩ := parted rfl rfl (List.cons.inj inner).2
    exact ⟨rfl, rfl⟩

/-! ### The style -/

/-- The kind of data that a function of the library constructs, by the start of its name. -/
def constructedKind? : List Char → Option String
  | [] => none
  | c :: cs =>
    match c with
    | 'k' => some "keyword"
    | 'l' => some "list"
    | 'v' => some "vector"
    | 'h' => some "map"
    | 's' => some (if cs.head? = some 'y' then "symbol" else "set")
    | _ => none

/-- The kind of data that a text starts with. -/
def dataKind? : List Char → Option String
  | [] => none
  | c :: cs =>
    match c with
    | 'n' => some "nil"
    | 't' | 'f' => some "boolean"
    | '(' => some (if cs.head? = some '-' then "integer" else "rational")
    | '\'' => some "string"
    | 'm' => constructedKind? (cs.drop "ori.".length)
    | digit => if digit.isDigit then some "integer" else none

/-- Only integers start with a digit. -/
theorem dataKind?_digit {c : Char} (digit : c.isDigit = true) (cs : List Char) :
    dataKind? (c :: cs) = some "integer" := by
  simp only [dataKind?]
  split <;> simp_all

/-- How data is written. -/
def dataStyle : DataStyle where
  nil := "null".toList
  rational ratio := ['('] ++
    ((integerText ratio.1).toList ++ (['/'] ++ Integer.chars ratio.2.toInt) ++ [')'])
  string text := (quoted text).toList
  keyword text := "mori.keyword(".toList ++ ((nameText (Name.parse text)).toList ++ [')'])
  symbol text := "mori.symbol(".toList ++ ((nameText (Name.parse text)).toList ++ [')'])
  list := ⟨"mori.list(".toList, ')', []⟩
  vector := ⟨"mori.vector(".toList, ')', []⟩
  set := ⟨"mori.set([".toList, ']', [')']⟩
  map := ⟨"mori.hashMap(".toList, ')', []⟩
  arrow := [',', ' ']
  kindAt? := dataKind?

/-- The first characters of a text tell its kind, whatever follows the text. -/
theorem dataStyle_kind {form : Form} (free : form.DecimalFree) {rest : List Char} :
    dataStyle.kindAt? (dataStyle.chars form ++ rest) = some form.kind := by
  cases form with
  | decimal d => exact absurd .self (free d)
  | boolean b =>
    rw [DataStyle.chars]
    cases b <;> rfl
  | integer i =>
    rw [DataStyle.chars]
    rcases integerText_cases i with ⟨d, ds, starts, digit, _⟩ | ⟨ds, written, _⟩
    · rw [starts]
      exact dataKind?_digit digit _
    · rw [written]
      rfl
  | rational n d =>
    simp only [DataStyle.chars, dataStyle]
    rcases integerText_cases n with ⟨d, ds, starts, digit, _⟩ | ⟨ds, written, _⟩
    · rw [starts]
      have unsigned : d ≠ '-' := by
        rintro rfl
        cases digit
      simp [dataKind?, unsigned, Form.kind]
    · rw [written]
      rfl
  | string s =>
    simp only [DataStyle.chars, dataStyle, quoted, String.toList_ofList]
    rfl
  | _ =>
    rw [DataStyle.chars]
    rfl

/-- Every shape of data can be read back, so that different data have different texts. -/
theorem dataStyle_lawful : dataStyle.Lawful where
  kind free _ _ := dataStyle_kind free
  rational ratio := by
    have inside := Cuts.pair ['/'] (fun _ => .cons rfl) (cuts_integerText ratio.1)
      (cuts_chars ratio.2)
    refine ((inside.closed [')'] fun _ => .cons rfl).opened ['(']).mono fun _ _ => ?_
    exact ⟨trivial, trivial⟩
  string := by simpa only [dataStyle] using quoted_cuts
  keyword text :=
    ((nameText_cuts (Name.parse text)).comap Name.parse_injective).opened "mori.keyword(".toList
  symbol text :=
    ((nameText_cuts (Name.parse text)).comap Name.parse_injective).opened "mori.symbol(".toList
  list := ⟨rfl, by decide, fun _ => rfl⟩
  vector := ⟨rfl, by decide, fun _ => rfl⟩
  set := ⟨rfl, by decide, fun _ => rfl⟩
  map := ⟨rfl, by decide, fun _ => rfl⟩
  arrow _ := .cons rfl

/-! ### Texts -/

theorem text_rational (n d : Int64) :
    dataStyle.text (.rational n d) = "(" ++ integerText n ++ "/" ++ Integer.text d ++ ")" := by
  apply String.toList_inj.mp
  rw [DataStyle.toList_text, DataStyle.chars]
  simp [dataStyle, Integer.text]

theorem text_keyword (name : String) :
    dataStyle.text (.keyword name) = "mori.keyword(" ++ nameText (Name.parse name) ++ ")" := by
  apply String.toList_inj.mp
  rw [DataStyle.toList_text, DataStyle.chars]
  simp [dataStyle]

theorem text_symbol (name : String) :
    dataStyle.text (.symbol name) = "mori.symbol(" ++ nameText (Name.parse name) ++ ")" := by
  apply String.toList_inj.mp
  rw [DataStyle.toList_text, DataStyle.chars]
  simp [dataStyle]

theorem text_list (forms : List Form) :
    dataStyle.text (.list forms) = "mori.list(" ++ commas (forms.map dataStyle.text) ++ ")" :=
  DataStyle.text_around (by rw [DataStyle.chars]) (by simp [dataStyle]) (by simp [dataStyle])

theorem text_vector (forms : List Form) :
    dataStyle.text (.vector forms) = "mori.vector(" ++ commas (forms.map dataStyle.text) ++ ")" :=
  DataStyle.text_around (by rw [DataStyle.chars]) (by simp [dataStyle]) (by simp [dataStyle])

theorem text_set (forms : List Form) :
    dataStyle.text (.set forms) = "mori.set([" ++ commas (forms.map dataStyle.text) ++ "])" :=
  DataStyle.text_around (by rw [DataStyle.chars]) (by simp [dataStyle]) (by simp [dataStyle])

theorem text_map (entries : List (Form × Form)) :
    dataStyle.text (.map entries) = "mori.hashMap(" ++
      commas (entries.flatMap fun entry => [dataStyle.text entry.1, dataStyle.text entry.2]) ++
      ")" := by
  apply String.toList_inj.mp
  rw [DataStyle.toList_text, DataStyle.chars,
    dataStyle.map.toList_around (by simp [dataStyle]) (by simp [dataStyle]), List.map_flatMap]
  simp only [List.map_cons, List.map_nil, DataStyle.toList_text, Brackets.around, sequence_pairs]
  rfl

/-! ### Nodes -/

mutual

/-- A node that is data is written in the style of data, wherever it stands. -/
theorem textOf_data {form : Form} {node : Node} (quotes : Quotes form node) (context : Context) :
    textOf context node = context.wrap (dataStyle.text form) := by
  match quotes with
  | .nil _ =>
    rw [textOf, DataStyle.text, DataStyle.chars]
    rfl
  | .boolean literal =>
    rw [textOf, DataStyle.text, DataStyle.chars]
    cases literal.value <;> rfl
  | .integer literal => rw [textOf, DataStyle.text, DataStyle.chars, String.ofList_toList]
  | .rational n d => rw [textOf, text_rational]
  | .decimal d => rw [textOf, DataStyle.text, DataStyle.chars, String.ofList_toList]
  | .string literal =>
    rw [textOf, DataStyle.text, DataStyle.chars]
    simp only [dataStyle, String.ofList_toList]
  | .keyword _ name => rw [textOf, text_keyword]
  | .symbol _ name => rw [textOf, text_symbol]
  | .list each => rw [textOf, textsOf_data each, text_list]
  | .vector each => rw [textOf, textsOf_data each, text_vector]
  | .set each => rw [textOf, textsOf_data each, text_set]
  | .map each => rw [textOf, entryTexts_data each, text_map]

/-- Elements of data, each by `textOf_data`. -/
theorem textsOf_data {forms : List Form} {nodes : List Node} (quotes : QuotesAll forms nodes) :
    textsOf nodes = forms.map dataStyle.text := by
  match quotes with
  | .nil => rw [textsOf, List.map_nil]
  | .cons first rest =>
    rw [textsOf, textOf_data first, textsOf_data rest, List.map_cons, Context.wrap]

/-- Keys and values of data in turn. -/
theorem entryTexts_data {entries : List (Form × Form)} {nodes : List (Node × Node)}
    (quotes : QuotesEntries entries nodes) :
    entryTexts nodes =
      entries.flatMap fun entry => [dataStyle.text entry.1, dataStyle.text entry.2] := by
  match quotes with
  | .nil => rw [entryTexts, List.flatMap_nil]
  | .cons first second rest =>
    rw [entryTexts, textOf_data first, textOf_data second, entryTexts_data rest]
    rfl

end

end ScriptLisp.JavaScript
