import StyleDoc.Proofs.PartTitles

/-!
Tables of parameters in Markdown, read back. A row is cut at its bars, but not at a bar with a
backslash in front of it; each cell between two cuts has one space on either side and writes its own
bars with a backslash. Whatever the cells hold, the cuts are those that the table makes, and what is
read from a cell is what was put there: a backslash that was there already stays where it is, also
in front of a bar and at the end of a cell.
-/

namespace StyleDoc

namespace Stylesheet

theorem isWellFormed_of_mem_parameters {content : String} {item : Item}
    (hitem : item ∈ items content) :
    ∀ parameter ∈ item.parameters, parameter.IsWellFormed := by
  obtain ⟨line, declaration, comments, hheader, hcomments, rfl⟩ := exists_of_mem_items hitem
  rw [Declaration.item, Block.item_eq_ofTags]
  exact (Item.isWellFormed_ofTags (fun tag => isWellFormed_of_mem_tags hcomments)
    (Declaration.isName_of_ofLine? hheader) declaration.kind).parameters

end Stylesheet

namespace Markdown

open Text

/-- A text cut at every bar that no backslash stands directly in front of. Whether one stands in
front of the text is told by `escaped`. -/
def piecesAfter (escaped : Bool) : List Char → List (List Char)
  | [] => [[]]
  | c :: rest =>
      if c = '|' && !escaped then [] :: piecesAfter false rest
      else (piecesAfter (c = '\\') rest).modifyHead (c :: ·)

/-- The pieces of a row. -/
def pieces (row : String) : List (List Char) :=
  piecesAfter false row.toList

/-- What stands between one space on either side. -/
def unpad? : List Char → Option (List Char)
  | ' ' :: rest => if rest.getLast? = some ' ' then some rest.dropLast else none
  | _ => none

/-- A text without the backslashes that stand directly in front of bars. -/
def unescape : List Char → List Char
  | '\\' :: '|' :: rest => '|' :: unescape rest
  | c :: rest => c :: unescape rest
  | [] => []

/-- The text that a piece of a row is written for. -/
def readCell? (piece : List Char) : Option (List Char) :=
  (unpad? piece).map unescape

/-- What a cell has in the place of one character. -/
def cellChar (c : Char) : List Char :=
  if c = '|' then ['\\', '|'] else if c = '\n' then [' '] else [c]

/-- The characters of a cell that is written for a text. -/
def cellChars (text : List Char) : List Char :=
  text.flatMap cellChar

/-- A cell with one space on either side. -/
def padded (text : List Char) : List Char :=
  ' ' :: (cellChars text ++ [' '])

theorem toList_cell (text : String) : (cell text).toList = cellChars text.toList :=
  String.toList_ofList

theorem cellChars_cons (c : Char) (text : List Char) :
    cellChars (c :: text) = cellChar c ++ cellChars text :=
  List.flatMap_cons

theorem cellChars_append (text more : List Char) :
    cellChars (text ++ more) = cellChars text ++ cellChars more :=
  List.flatMap_append

theorem cellChar_bar : cellChar '|' = ['\\', '|'] :=
  rfl

theorem cellChar_of_ne {c : Char} (hbar : c ≠ '|') (hbreak : c ≠ '\n') : cellChar c = [c] := by
  rw [cellChar, if_neg hbar, if_neg hbreak]

theorem cellChars_eq_self {text : List Char} (hbar : '|' ∉ text) (hbreak : '\n' ∉ text) :
    cellChars text = text := by
  have hchars : text.flatMap cellChar = text.flatMap fun c => [c] := by
    apply List.flatMap_congr
    intro c hc
    exact cellChar_of_ne (ne_of_mem_of_not_mem hc hbar) (ne_of_mem_of_not_mem hc hbreak)
  exact hchars.trans (List.flatMap_singleton' text)

/-- A cell never begins with a bar. -/
theorem head?_cellChars_ne (text : List Char) : (cellChars text).head? ≠ some '|' := by
  cases text with
  | nil => simp [cellChars]
  | cons c text =>
      rw [cellChars_cons, cellChar]
      split
      · simp
      · split
        · simp
        · simpa

theorem unescape_cons_of_head {c : Char} {rest : List Char} (hrest : rest.head? ≠ some '|') :
    unescape (c :: rest) = c :: unescape rest := by
  rw [unescape]
  rintro more - rfl
  exact hrest rfl

/-- The bar of an escaped bar is the only one that can follow a backslash. -/
theorem unescape_cellChar_append {c : Char} (hbreak : c ≠ '\n') (text : List Char) :
    unescape (cellChar c ++ cellChars text) = c :: unescape (cellChars text) := by
  by_cases hbar : c = '|'
  · subst hbar
    rw [cellChar_bar, List.cons_append, List.cons_append, List.nil_append, unescape]
  · rw [cellChar_of_ne hbar hbreak]
    exact unescape_cons_of_head (head?_cellChars_ne text)

theorem unescape_cellChars {text : List Char} (hbreak : '\n' ∉ text) :
    unescape (cellChars text) = text := by
  induction text with
  | nil => rfl
  | cons c text ih =>
      have hc : c ≠ '\n' := (List.ne_of_not_mem_cons hbreak).symm
      rw [cellChars_cons, unescape_cellChar_append hc, ih (List.not_mem_of_not_mem_cons hbreak)]

theorem readCell?_padded {text : List Char} (hbreak : '\n' ∉ text) :
    readCell? (padded text) = some text := by
  have hlast : (cellChars text ++ [' ']).getLast? = some ' ' := List.getLast?_concat ..
  rw [readCell?, padded, unpad?, if_pos hlast, List.dropLast_concat, Option.map_some,
    unescape_cellChars hbreak]

theorem piecesAfter_cons {escaped : Bool} {c : Char} (hc : c ≠ '|' ∨ escaped = true)
    (rest : List Char) :
    piecesAfter escaped (c :: rest) = (piecesAfter (c = '\\') rest).modifyHead (c :: ·) := by
  rw [piecesAfter, if_neg]
  rcases hc with hc | rfl
  · simp [hc]
  · simp

theorem piecesAfter_bar (rest : List Char) :
    piecesAfter false ('|' :: rest) = [] :: piecesAfter false rest := by
  simp [piecesAfter]

/-- A row is not cut in what stands for one character. Only the character itself can leave a
backslash behind: an escaped bar ends with the bar. -/
theorem piecesAfter_cellChar_append (escaped : Bool) (c : Char) (rest : List Char) :
    piecesAfter escaped (cellChar c ++ rest) =
      (piecesAfter (c = '\\') rest).modifyHead (cellChar c ++ ·) := by
  by_cases hbar : c = '|'
  · subst hbar
    rw [cellChar_bar, List.cons_append, List.cons_append, piecesAfter_cons (Or.inl (by decide)),
      piecesAfter_cons (Or.inr (by decide)), List.modifyHead_modifyHead]
    rfl
  · by_cases hbreak : c = '\n'
    · subst hbreak
      exact piecesAfter_cons (Or.inl (by decide)) rest
    · rw [cellChar_of_ne hbar hbreak]
      exact piecesAfter_cons (Or.inl hbar) rest

/-- A row is not cut inside a cell, whatever stands in front of it. The space behind the cell keeps
a backslash at its end away from the bar that ends it. -/
theorem piecesAfter_cellChars_append (escaped : Bool) (text rest : List Char) :
    piecesAfter escaped (cellChars text ++ ' ' :: rest) =
      (piecesAfter false rest).modifyHead (cellChars text ++ ' ' :: ·) := by
  induction text generalizing escaped with
  | nil => exact piecesAfter_cons (Or.inl (by decide)) rest
  | cons c text ih =>
      rw [cellChars_cons, List.append_assoc, piecesAfter_cellChar_append, ih,
        List.modifyHead_modifyHead]
      simp only [Function.comp_def, List.append_assoc]

/-- A row of cells is cut into its cells, behind the empty piece in front of its first bar and with
an empty piece behind its last one. -/
theorem piecesAfter_flatMap_padded (texts : List (List Char)) :
    piecesAfter false (texts.flatMap fun text => padded text ++ ['|']) =
      texts.map padded ++ [[]] := by
  induction texts with
  | nil => rfl
  | cons text texts ih =>
      have hfirst (rest : List Char) : padded text ++ ['|'] ++ rest =
          ' ' :: (cellChars text ++ ' ' :: '|' :: rest) := by simp [padded]
      rw [List.flatMap_cons, hfirst, piecesAfter_cons (Or.inl (by decide)),
        piecesAfter_cellChars_append, piecesAfter_bar, ih]
      simp [padded]

/-- The texts that the cells of a row are written for. -/
def rowTexts (parameter : Parameter) : List String :=
  [code parameter.name, code parameter.type, (parameter.default.map code).getD "-",
    parameter.description]

theorem toList_code (text : String) :
    (code text).toList = "`".toList ++ (text.toList ++ "`".toList) := by
  simp [code, toString]

theorem cellChars_code (text : String) :
    cellChars (code text).toList = "`".toList ++ (cellChars text.toList ++ "`".toList) := by
  have hquote : cellChars "`".toList = "`".toList := by decide
  rw [toList_code, cellChars_append, cellChars_append, hquote]

theorem not_mem_of_isParameterName {parameter : Parameter} (hformed : parameter.IsWellFormed) :
    '|' ∉ parameter.name.toList ∧ '\n' ∉ parameter.name.toList := by
  obtain ⟨name, hname, hwritten⟩ := hformed.name
  have hnone {c : Char} (hc : Text.isNameChar c = false) : c ∉ name := by
    intro hmem
    rw [hname.2 c hmem] at hc
    cases hc
  have hbar : '|' ∉ name := hnone (by decide)
  have hbreak : '\n' ∉ name := hnone (by decide)
  rcases hwritten with hwritten | hwritten <;> simp [hwritten, hbar, hbreak]

/-- A name is not escaped, and has nothing in it that could be. -/
theorem toList_parameterRow {parameter : Parameter} (hformed : parameter.IsWellFormed) :
    (parameterRow parameter).toList =
      '|' :: ((rowTexts parameter).map String.toList).flatMap fun text => padded text ++ ['|'] := by
  obtain ⟨hbar, hbreak⟩ := not_mem_of_isParameterName hformed
  have hname : cellChars parameter.name.toList = parameter.name.toList :=
    cellChars_eq_self hbar hbreak
  simp only [rowTexts, padded, List.map_cons, List.map_nil, List.flatMap_cons, List.flatMap_nil,
    cellChars_code, hname]
  simp [parameterRow, toList_cell, toList_code, toString]

theorem pieces_parameterRow {parameter : Parameter} (hformed : parameter.IsWellFormed) :
    pieces (parameterRow parameter) =
      [] :: ((rowTexts parameter).map String.toList).map padded ++ [[]] := by
  rw [pieces, toList_parameterRow hformed, piecesAfter_bar, piecesAfter_flatMap_padded,
    List.cons_append]

theorem unbroken_of_mem_rowTexts {parameter : Parameter} (hformed : parameter.IsWellFormed) :
    ∀ text ∈ rowTexts parameter, '\n' ∉ text.toList := by
  have hcode {text : String} (htext : '\n' ∉ text.toList) : '\n' ∉ (code text).toList := by
    simpa [toList_code] using htext
  intro text hmem
  simp only [rowTexts, List.mem_cons, List.not_mem_nil, or_false] at hmem
  rcases hmem with rfl | rfl | rfl | rfl
  · exact hcode (not_mem_of_isParameterName hformed).2
  · exact hcode hformed.type.2.2
  · cases hdefault : parameter.default with
    | none => decide
    | some default => exact hcode (hformed.default default hdefault).1.unbroken
  · exact hformed.description

theorem unbroken_parameterRow {parameter : Parameter} (hformed : parameter.IsWellFormed) :
    '\n' ∉ (parameterRow parameter).toList :=
  (isBody_parameterRow (not_mem_of_isParameterName hformed).2).unbroken

/-- Every line of a table ends with a bar, so none can lose a carriage return at its end. -/
theorem getLast?_of_mem_parameterTable {parameters : List Parameter}
    (hformed : ∀ parameter ∈ parameters, parameter.IsWellFormed) :
    ∀ line ∈ parameterTable parameters, line.toList.getLast? = some '|' := by
  intro line hline
  unfold parameterTable at hline
  split at hline
  · cases hline
  · simp only [List.mem_cons, List.mem_map] at hline
    rcases hline with rfl | rfl | ⟨parameter, hmem, rfl⟩
    · decide
    · decide
    · rw [toList_parameterRow (hformed parameter hmem)]
      simp [rowTexts, List.getLast?_cons]

theorem lines_parameterTable {parameters : List Parameter}
    (hformed : ∀ parameter ∈ parameters, parameter.IsWellFormed) :
    lines (unlines (parameterTable parameters)).toList =
      (parameterTable parameters).map String.toList := by
  have hbody := isBody_of_mem_parameterTable fun parameter hmem =>
    (not_mem_of_isParameterName (hformed parameter hmem)).2
  have hread := lines_unlines ((parameterTable parameters).map String.toList) <| by
    intro written hwritten
    obtain ⟨line, hline, rfl⟩ := List.mem_map.mp hwritten
    refine ⟨(hbody line hline).unbroken, ?_⟩
    rw [getLast?_of_mem_parameterTable hformed line hline]
    decide
  simpa [Function.comp_def] using hread

/-- Lines that are written next to each other are read next to each other. -/
theorem lines_unlines_isInfix {table page : List String} (htable : table <:+: page) :
    lines (unlines table).toList <:+: lines (unlines page).toList := by
  obtain ⟨front, back, rfl⟩ := htable
  refine ⟨lines (unlines front).toList, lines (unlines back).toList, ?_⟩
  rw [unlines_append, unlines_append, String.toList_append, String.toList_append,
    List.append_assoc (unlines front).toList, lines_unlines_append, lines_unlines_append,
    List.append_assoc]

theorem parameterTable_isInfix_pageLines {document : Document} {item : Item}
    (hitem : item ∈ document.items) (hnonempty : item.parameters ≠ []) :
    parameterTable item.parameters <:+: pageLines document := by
  have hpart : parameterTable item.parameters <:+: part "Parameters"
      (parameterTable item.parameters) := by
    have hshown : (parameterTable item.parameters).isEmpty = false := by
      simp [parameterTable, hnonempty]
    rw [part, hshown]
    exact ⟨["#### Parameters", ""], [""], by simp [toString]⟩
  have hsection : part "Parameters" (parameterTable item.parameters) <:+: itemLines item := by
    rw [itemLines_eq]
    -- The six parts of the section below the table.
    iterate 6 refine List.IsInfix.trans ?_ (List.prefix_append _ _).isInfix
    exact (List.suffix_append _ _).isInfix
  have hsections : itemLines item <:+: document.items.flatMap itemLines := by
    obtain ⟨front, back, hitems⟩ := List.append_of_mem hitem
    refine ⟨front.flatMap itemLines, back.flatMap itemLines, ?_⟩
    rw [hitems, List.flatMap_append, List.flatMap_cons, List.append_assoc]
  exact hpart.trans (hsection.trans (hsections.trans (List.suffix_append _ _).isInfix))

/-- Each parameter has one row, which is cut into the four texts of the parameter at the bars of the
table, and a page has the rows as lines of its own. -/
theorem cells_parameterRow {content : String} {item : Item} {parameter : Parameter}
    (hitem : item ∈ Stylesheet.items content) (hparameter : parameter ∈ item.parameters) :
    '\n' ∉ (parameterRow parameter).toList ∧
      (∃ name type default description,
        pieces (parameterRow parameter) = [[], name, type, default, description, []] ∧
          readCell? name = some s!"`{parameter.name}`".toList ∧
          readCell? type = some s!"`{parameter.type}`".toList ∧
          readCell? default = some (match parameter.default with
            | some text => s!"`{text}`".toList
            | none => ['-']) ∧
          readCell? description = some parameter.description.toList) ∧
      ∀ document : Document, item ∈ document.items →
        "| Name | Type | Default | Description |".toList ::
          "|------|------|---------|-------------|".toList ::
          item.parameters.map (fun other => (parameterRow other).toList) <:+:
            lines (page document).toList := by
  have hformed := Stylesheet.isWellFormed_of_mem_parameters hitem
  have hown := hformed parameter hparameter
  refine ⟨unbroken_parameterRow hown, ?_, fun document hmem => ?_⟩
  · have hread : ∀ text ∈ rowTexts parameter, readCell? (padded text.toList) = some text.toList :=
      fun text hmem => readCell?_padded (unbroken_of_mem_rowTexts hown text hmem)
    refine ⟨padded (code parameter.name).toList, padded (code parameter.type).toList,
      padded ((parameter.default.map code).getD "-").toList, padded parameter.description.toList,
      pieces_parameterRow hown, ?_, ?_, ?_, ?_⟩
    · exact hread (code parameter.name) (by simp [rowTexts])
    · exact hread (code parameter.type) (by simp [rowTexts])
    · have hdefault := hread ((parameter.default.map code).getD "-") (by simp [rowTexts])
      cases hgiven : parameter.default with
      | none => simpa [hgiven] using hdefault
      | some text => simpa [hgiven, code] using hdefault
    · exact hread parameter.description (by simp [rowTexts])
  · have hnonempty : item.parameters ≠ [] := List.ne_nil_of_mem hparameter
    have htable := lines_unlines_isInfix (parameterTable_isInfix_pageLines hmem hnonempty)
    rw [lines_parameterTable hformed] at htable
    simpa [parameterTable, hnonempty, Function.comp_def, page] using htable

/-- Bars and backslashes at the ends of a type, a default and a description. -/
def padSource : String :=
  "/// @param \x7bA\\|B|\x7d $raw (a|\\) - ends in \\\n" ++
    "/// @param \x7b\\\x7d y - |\n@function pad($raw, $y)"

def padRaw : Parameter where
  type := "A\\|B|"
  name := "$raw"
  default := some "a|\\"
  description := "ends in \\"

def pad : Item where
  kind := .function
  name := "pad"
  description := ""
  parameters := [padRaw, { type := "\\", name := "y", default := none, description := "|" }]

theorem cells_parameterRow_bars :
    pad ∈ Stylesheet.items padSource ∧ padRaw ∈ pad.parameters ∧
      parameterRow padRaw = "| `$raw` | `A\\\\|B\\|` | `a\\|\\` | ends in \\ |" ∧
      (∃ name type default description,
        pieces (parameterRow padRaw) = [[], name, type, default, description, []] ∧
          readCell? name = some "`$raw`".toList ∧ readCell? type = some "`A\\|B|`".toList ∧
          readCell? default = some "`a|\\`".toList ∧
          readCell? description = some "ends in \\".toList) ∧
      ["| Name | Type | Default | Description |".toList,
          "|------|------|---------|-------------|".toList,
          "| `$raw` | `A\\\\|B\\|` | `a\\|\\` | ends in \\ |".toList,
          "| `y` | `\\` | - | \\| |".toList] <:+:
        lines (page { items := [pad] }).toList := by
  have hitem : pad ∈ Stylesheet.items padSource := by decide +kernel
  have hparameter : padRaw ∈ pad.parameters := List.mem_cons_self
  have hrow : parameterRow padRaw = "| `$raw` | `A\\\\|B\\|` | `a\\|\\` | ends in \\ |" := by
    decide +kernel
  obtain ⟨-, hcells, hpage⟩ := cells_parameterRow hitem hparameter
  have htable := hpage { items := [pad] } List.mem_cons_self
  exact ⟨hitem, hparameter, hrow, hcells, htable⟩

end Markdown

end StyleDoc
