import StyleDoc.Proofs.Html.Filling
import StyleDoc.Proofs.Html.Names
import StyleDoc.Proofs.Html.Structure
import StyleDoc.Proofs.Slugs
import StyleDoc.Proofs.Spelling
import StyleDoc.Proofs.Titles
import StyleDoc.Proofs.WellFormed

/-!
The titled parts of a section. Both formats show the same parts of an item in the same order, under
headings of level four in Markdown and under `h4` elements in HTML. Only the description of an item
can have several lines, and escaped text has no tags, so no other text of an item adds a title to
its section or takes one away.
-/

namespace StyleDoc

open Text

/-- The title of a part that may be missing. -/
def titleIf (isShown : Bool) (title : String) : List String :=
  if isShown then [title] else []

/-- The titles of the parts that an item has. -/
def Item.partTitles (item : Item) : List String :=
  titleIf (!item.parameters.isEmpty) "Parameters" ++ titleIf item.returns.types.isSome "Returns" ++
    titleIf (!item.throws.isEmpty) "Throws" ++ titleIf (!item.aliases.isEmpty) "Aliases" ++
    titleIf (!item.links.isEmpty) "See also" ++ titleIf (!item.todos.isEmpty) "Todo"

namespace Markdown

/-- What stands behind the marker of a heading of level four. -/
def heading? (line : List Char) : Option (List Char) :=
  literal? "#### ".toList line

/-- The headings of level four in a text, without their markers. -/
def headings (text : String) : List (List Char) :=
  (text.toList.splitOn '\n').filterMap heading?

/-- A text that is one line of a page, but no heading of any level. -/
structure IsBody (line : String) : Prop where
  unbroken : '\n' ∉ line.toList
  unmarked : ∀ c ∈ line.toList.head?, c ≠ '#'

theorem isBody_empty : IsBody "" :=
  ⟨by decide, by simp⟩

theorem IsBody.append {line more : String} (hline : IsBody line) (hmore : IsBody more) :
    IsBody (line ++ more) where
  unbroken := by
    rw [String.toList_append]
    exact List.not_mem_append hline.unbroken hmore.unbroken
  unmarked := by
    intro c hc
    rw [String.toList_append] at hc
    cases htext : line.toList with
    | nil =>
        rw [htext] at hc
        exact hmore.unmarked c hc
    | cons d rest =>
        rw [htext] at hc
        exact hline.unmarked c (htext ▸ hc)

section Lines

variable {lines more : List String}

/-- The headings in texts that are ended by line feeds, text by text. -/
def headingsIn (lines : List String) : List (List Char) :=
  lines.flatMap fun line => (line.toList.splitOn '\n').filterMap heading?

theorem headings_unlines (lines : List String) : headings (unlines lines) = headingsIn lines := by
  have hsplit := splitOn_unlines lines []
  rw [List.append_nil] at hsplit
  rw [headings, hsplit, List.filterMap_append, List.filterMap_flatMap]
  simp [heading?, literal?, headingsIn]

@[simp]
theorem headingsIn_append : headingsIn (lines ++ more) = headingsIn lines ++ headingsIn more :=
  List.flatMap_append

@[simp]
theorem headingsIn_nil : headingsIn [] = [] :=
  rfl

theorem headingsIn_singleton {line : String} (hunbroken : '\n' ∉ line.toList) :
    headingsIn [line] = (heading? line.toList).toList := by
  rw [headingsIn, List.flatMap_singleton, List.splitOn_eq_singleton hunbroken]
  cases h : heading? line.toList <;> simp [h]

theorem headingsIn_eq_nil (hlines : ∀ line ∈ lines, IsBody line) : headingsIn lines = [] := by
  rw [headingsIn, List.flatMap_eq_nil_iff]
  intro line hline
  obtain ⟨hunbroken, hunmarked⟩ := hlines line hline
  have hnone : heading? line.toList = none := by
    cases htext : line.toList with
    | nil => rfl
    | cons c rest =>
        have hc : '#' ≠ c := fun heq => hunmarked c (by simp [htext]) heq.symm
        simp [heading?, literal?, hc]
  rw [List.splitOn_eq_singleton hunbroken, List.filterMap_cons_none hnone, List.filterMap_nil]

/-- A part has its title for a heading, and no other one. -/
theorem headingsIn_part {title : String} {body : List String} (htitle : '\n' ∉ title.toList)
    (hbody : ∀ line ∈ body, IsBody line) :
    headingsIn (part title body) = (titleIf (!body.isEmpty) title).map String.toList := by
  cases body with
  | nil => rfl
  | cons first rest =>
      have hpart : part title (first :: rest) =
          ["#### " ++ title] ++ ("" :: first :: rest ++ [""]) := rfl
      have hunbroken : '\n' ∉ ("#### " ++ title).toList := by simp [htitle]
      have hnone : headingsIn ("" :: first :: rest ++ [""]) = [] := by
        refine headingsIn_eq_nil fun line hline => ?_
        rcases List.mem_append.mp hline with hline | hline
        · rcases List.mem_cons.mp hline with rfl | hline
          · exact isBody_empty
          · exact hbody line hline
        · rw [List.mem_singleton.mp hline]
          exact isBody_empty
      rw [hpart, headingsIn_append, headingsIn_singleton hunbroken, hnone]
      simp [heading?, literal?, titleIf]

end Lines

section Bodies

theorem isBody_bullet {text : String} (htext : '\n' ∉ text.toList) : IsBody (bullet text) :=
  ⟨by simpa [bullet, toString] using htext, by simp [bullet, toString]⟩

theorem isBody_code {text : String} (htext : '\n' ∉ text.toList) : IsBody (code text) :=
  ⟨by simpa [code, toString] using htext, by simp [code, toString]⟩

theorem not_mem_cell (text : String) : '\n' ∉ (cell text).toList := by
  rw [cell, String.toList_ofList, List.mem_flatMap]
  rintro ⟨c, -, hc⟩
  split at hc
  · simp at hc
  · split at hc
    · simp at hc
    · exact absurd (List.mem_singleton.mp hc).symm ‹_›

/-- A row of a table is on one line, because its cells are. -/
theorem isBody_parameterRow {parameter : Parameter} (hname : '\n' ∉ parameter.name.toList) :
    IsBody (parameterRow parameter) where
  unbroken := by
    have hcode := (isBody_code hname).unbroken
    have htype := (isBody_code (not_mem_cell parameter.type)).unbroken
    simp [parameterRow, toString, hcode, htype, not_mem_cell]
  unmarked := by simp [parameterRow, toString]

theorem isBody_of_mem_parameterTable {parameters : List Parameter}
    (hparameters : ∀ parameter ∈ parameters, '\n' ∉ parameter.name.toList) :
    ∀ line ∈ parameterTable parameters, IsBody line := by
  intro line hline
  unfold parameterTable at hline
  split at hline
  · cases hline
  · rcases List.mem_cons.mp hline with rfl | hline
    · exact ⟨by decide, by simp⟩
    · rcases List.mem_cons.mp hline with rfl | hline
      · exact ⟨by decide, by simp⟩
      · obtain ⟨parameter, hparameter, rfl⟩ := List.mem_map.mp hline
        exact isBody_parameterRow (hparameters parameter hparameter)

theorem isBody_returnLine {types : List String} {description : Option String}
    (htypes : ∀ type ∈ types, '\n' ∉ type.toList)
    (hdescription : ∀ text ∈ description, '\n' ∉ text.toList) :
    IsBody (returnLine types description) := by
  have halternatives : IsBody (String.intercalate " | " (types.map code)) := by
    have hbar : IsBody " | " := ⟨by decide, by simp⟩
    induction types with
    | nil => exact isBody_empty
    | cons type types ih =>
        obtain ⟨htype, htypes⟩ := List.forall_mem_cons.mp htypes
        cases types with
        | nil => simpa using isBody_code htype
        | cons next types =>
            rw [List.map_cons, List.map_cons, String.intercalate_cons_cons, ← List.map_cons]
            exact ((isBody_code htype).append hbar).append (ih htypes)
  unfold returnLine
  split
  · rename_i text
    split
    · exact halternatives
    · have hcolon : IsBody (": " ++ text) :=
        ⟨by simpa using hdescription text rfl, by simp⟩
      have hline := halternatives.append hcolon
      rwa [← String.append_assoc] at hline
  · exact halternatives

theorem isBody_of_mem_notes {item : Item}
    (hreason : ∀ reason, item.deprecated = .because reason → '\n' ∉ reason.toList)
    (haccess : '\n' ∉ item.access.toList) : ∀ line ∈ notes item, IsBody line := by
  have hquote : IsBody ">" := ⟨by decide, by simp⟩
  have hdeprecated : IsBody "> **Deprecated**" := ⟨by decide, by simp⟩
  have hlevel : IsBody s!"> *{code item.access}*" := by
    have hcode := (isBody_code haccess).unbroken
    exact ⟨by simp [toString, hcode], by simp [toString]⟩
  cases hvalue : item.deprecated with
  | current => by_cases hpublic : item.access = "public" <;>
      simp [notes, hvalue, hpublic, hlevel, isBody_empty]
  | deprecated => by_cases hpublic : item.access = "public" <;>
      simp [notes, hvalue, hpublic, hlevel, hquote, hdeprecated, isBody_empty]
  | because reason =>
      have hbecause : IsBody s!"> **Deprecated**: {reason}" :=
        ⟨by simpa [toString] using hreason reason hvalue, by simp [toString]⟩
      by_cases hpublic : item.access = "public" <;>
        simp [notes, hvalue, hpublic, hlevel, hquote, hbecause, isBody_empty]

end Bodies

/-- The lines in front of the notes about an item. -/
def openingLines (item : Item) : List String :=
  ["<a id=\"" ++ item.anchor ++ "\"></a>", "", "### " ++ item.name, "",
    "_" ++ item.kind.keyword ++ "_", ""]

def descriptionLines (description : String) : List String :=
  if description = "" then [] else [description, ""]

def returnLines (value : Return) : List String :=
  match value.types with
  | some types => part "Returns" [returnLine types value.description]
  | none => []

def authorLines : Option String → List String
  | some author => ["_Author: " ++ author ++ "_", ""]
  | none => []

theorem itemLines_eq (item : Item) :
    itemLines item =
      openingLines item ++ notes item ++ descriptionLines item.description ++
        part "Parameters" (parameterTable item.parameters) ++ returnLines item.returns ++
        part "Throws" (item.throws.map bullet) ++ part "Aliases" (item.aliases.map bullet) ++
        part "See also" (item.links.map fun value => bullet (link value)) ++
        part "Todo" (item.todos.map bullet) ++ authorLines item.author :=
  rfl

section Items

variable {item : Item}

theorem headingsIn_openingLines (hname : '\n' ∉ item.name.toList) :
    headingsIn (openingLines item) = [] := by
  have hanchor : IsBody ("<a id=\"" ++ item.anchor ++ "\"></a>") := by
    have hunbroken : '\n' ∉ item.anchor.toList := fun hmem =>
      absurd (Item.isSlugChar_of_mem_anchor hmem) (by decide +kernel)
    exact ⟨by simpa using hunbroken, by simp⟩
  have hkind : IsBody ("_" ++ item.kind.keyword ++ "_") := by
    cases item.kind <;> exact ⟨by decide, by simp⟩
  have hheading : headingsIn ["### " ++ item.name] = [] := by
    rw [headingsIn_singleton (by simpa using hname)]
    simp [heading?, literal?]
  have hlines : openingLines item = ["<a id=\"" ++ item.anchor ++ "\"></a>", ""] ++
      (["### " ++ item.name] ++ ["", "_" ++ item.kind.keyword ++ "_", ""]) := rfl
  have hbefore : headingsIn ["<a id=\"" ++ item.anchor ++ "\"></a>", ""] = [] :=
    headingsIn_eq_nil (by simp [hanchor, isBody_empty])
  have hbehind : headingsIn ["", "_" ++ item.kind.keyword ++ "_", ""] = [] :=
    headingsIn_eq_nil (by simp [hkind, isBody_empty])
  rw [hlines, headingsIn_append, headingsIn_append, hbefore, hheading, hbehind]
  rfl

theorem headingsIn_descriptionLines {description : String}
    (hdescription : ∀ line ∈ description.toList.splitOn '\n', heading? line = none) :
    headingsIn (descriptionLines description) = [] := by
  unfold descriptionLines
  split
  · rfl
  · have hnone : headingsIn [description] = [] := by
      rw [headingsIn, List.flatMap_singleton]
      exact List.filterMap_eq_nil_iff.mpr hdescription
    have hempty : headingsIn [""] = [] := headingsIn_eq_nil (by simpa using isBody_empty)
    rw [← List.singleton_append, headingsIn_append, hnone, hempty, List.append_nil]

theorem headingsIn_returnLines {value : Return} (hvalue : value.IsWellFormed) :
    headingsIn (returnLines value) =
      (titleIf value.types.isSome "Returns").map String.toList := by
  unfold returnLines
  cases htypes : value.types with
  | none => rfl
  | some types =>
      have hline : IsBody (returnLine types value.description) :=
        isBody_returnLine (fun type htype => (hvalue.types types htypes type htype).2.2.2)
          hvalue.description
      exact headingsIn_part (by decide) (by simpa using hline)

theorem headingsIn_authorLines {author : Option String}
    (hauthor : ∀ name ∈ author, '\n' ∉ name.toList) : headingsIn (authorLines author) = [] := by
  cases author with
  | none => rfl
  | some name =>
      have hline : IsBody ("_Author: " ++ name ++ "_") :=
        ⟨by simpa using hauthor name rfl, by simp⟩
      have hlines : authorLines (some name) = ["_Author: " ++ name ++ "_", ""] := rfl
      rw [hlines]
      exact headingsIn_eq_nil (by simp [hline, isBody_empty])

theorem headingsIn_bullets {title : String} (htitle : '\n' ∉ title.toList) {texts : List String}
    (htexts : ∀ text ∈ texts, '\n' ∉ text.toList) :
    headingsIn (part title (texts.map bullet)) =
      (titleIf (!texts.isEmpty) title).map String.toList := by
  have hbody : ∀ line ∈ texts.map bullet, IsBody line := by
    intro line hline
    obtain ⟨text, htext, rfl⟩ := List.mem_map.mp hline
    exact isBody_bullet (htexts text htext)
  rw [headingsIn_part htitle hbody, List.isEmpty_map]

theorem not_mem_link {value : Link} (hvalue : value.IsWellFormed) : '\n' ∉ (link value).toList := by
  have htext : '\n' ∉ value.text.toList := by
    cases hcaption : value.caption with
    | none => simpa [Link.text, hcaption] using hvalue.url.unbroken
    | some caption => simpa [Link.text, hcaption] using (hvalue.caption caption hcaption).unbroken
  simp [link, toString, htext, hvalue.url.unbroken]

theorem headingsIn_parameterTable (hformed : item.IsWellFormed) :
    headingsIn (part "Parameters" (parameterTable item.parameters)) =
      (titleIf (!item.parameters.isEmpty) "Parameters").map String.toList := by
  have hnames : ∀ parameter ∈ item.parameters, '\n' ∉ parameter.name.toList := by
    intro parameter hparameter
    obtain ⟨name, hname, hwritten⟩ := (hformed.parameters parameter hparameter).name
    exact Tag.break_not_mem_of_isName hname hwritten
  have hempty : (parameterTable item.parameters).isEmpty = item.parameters.isEmpty := by
    unfold parameterTable
    split <;> simp_all
  rw [headingsIn_part (by decide) (isBody_of_mem_parameterTable hnames), hempty]

/-- A section has a heading for every part that the item has, unless its description looks like
one. -/
theorem headings_itemLines (hformed : item.IsWellFormed)
    (hdescription : ∀ line ∈ item.description.toList.splitOn '\n', heading? line = none) :
    headings (unlines (itemLines item)) = item.partTitles.map String.toList := by
  have hnotes : headingsIn (notes item) = [] := by
    refine headingsIn_eq_nil (isBody_of_mem_notes (fun reason hreason => ?_)
      hformed.access.unbroken)
    have hdeprecated := hformed.deprecated
    rw [hreason] at hdeprecated
    exact hdeprecated.unbroken
  have hname : '\n' ∉ item.name.toList := Tag.break_not_mem_of_isName hformed.name (Or.inl rfl)
  have hthrows := headingsIn_bullets (by decide : '\n' ∉ "Throws".toList)
    fun text htext => (hformed.throws text htext).unbroken
  have haliases := headingsIn_bullets (by decide : '\n' ∉ "Aliases".toList)
    fun name hname => (hformed.aliases name hname).unbroken
  have hlinks : headingsIn (part "See also" (item.links.map fun value => bullet (link value))) =
      (titleIf (!item.links.isEmpty) "See also").map String.toList := by
    have hbullets := headingsIn_bullets (by decide : '\n' ∉ "See also".toList)
      (List.forall_mem_map.mpr fun value hvalue => not_mem_link (hformed.links value hvalue))
    rwa [List.map_map, List.isEmpty_map] at hbullets
  have htodos := headingsIn_bullets (by decide : '\n' ∉ "Todo".toList)
    fun text htext => (hformed.todos text htext).unbroken
  have hauthor := headingsIn_authorLines fun name hname => (hformed.author name hname).unbroken
  rw [headings_unlines, itemLines_eq]
  simp only [headingsIn_append, headingsIn_openingLines hname, hnotes,
    headingsIn_descriptionLines hdescription, headingsIn_parameterTable hformed,
    headingsIn_returnLines hformed.returns, hthrows, haliases, hlinks, htodos, hauthor]
  simp [Item.partTitles]

end Items

end Markdown

namespace Html

/-- What a tag `h4` is followed by, up to the next tag, decoded. -/
def title? : List Char × List Char → Option (List Char)
  | (tag, text) => if tag = "h4".toList then some (decodeChars text) else none

/-- The titles of the parts of a section. -/
def titles (text : String) : List (List Char) :=
  (cut text.toList).tags.filterMap title?

section Pieces

variable {piece : Piece} {pieces : List Piece}

/-- The titles in pieces that are cut at their tags. -/
def titlesIn (pieces : List Piece) : List (List Char) :=
  (cutPieces pieces).tags.filterMap title?

theorem Piece.name?_of_tag? (htag : piece.tag? = some "h4".toList) : piece.name? = some "h4" := by
  cases piece with
  | doctype => simp [Piece.tag?] at htag
  | text content => cases htag
  | closing name => simp [Piece.tag?] at htag
  | opening name attributes =>
      cases attributes with
      | nil =>
          have hname : name.toList = "h4".toList := by simpa [Piece.tag?] using htag
          rw [Piece.name?, String.toList_inj.mp hname]
      | cons first attributes =>
          -- The space in front of an attribute is no part of the tag.
          have hspace : ' ' ∈ "h4".toList := by
            rw [← Option.some.inj htag]
            simp [printAttribute]
          exact absurd hspace (by decide)

theorem titlesIn_cons (hpiece : piece.name? ≠ some "h4") (rest : List Piece) :
    titlesIn (piece :: rest) = titlesIn rest := by
  rw [titlesIn, cutPieces]
  cases htag : piece.tag? with
  | none => rfl
  | some tag =>
      have hother : tag ≠ "h4".toList := by
        rintro rfl
        exact hpiece (Piece.name?_of_tag? htag)
      exact List.filterMap_cons_none (if_neg hother)

/-- Pieces without an `h4` element have no title, whatever follows them. -/
theorem titlesIn_append (hpieces : "h4" ∉ names pieces) (rest : List Piece) :
    titlesIn (pieces ++ rest) = titlesIn rest := by
  induction pieces with
  | nil => rfl
  | cons piece pieces ih =>
      have hpiece : piece.name? ≠ some "h4" := fun heq =>
        hpieces (List.mem_filterMap.mpr ⟨piece, List.mem_cons_self, heq⟩)
      have hothers : "h4" ∉ names pieces := fun hmem => by
        obtain ⟨other, hother, hname⟩ := List.mem_filterMap.mp hmem
        exact hpieces (List.mem_filterMap.mpr ⟨other, List.mem_cons_of_mem _ hother, hname⟩)
      rw [List.cons_append, titlesIn_cons hpiece, ih hothers]

theorem title?_escapeChars (title : String) :
    title? ("h4".toList, escapeChars title.toList) = some title.toList := by
  have hescaped := decodeChars_escapeChars_append title.toList []
  rw [List.append_nil, decodeChars, List.append_nil] at hescaped
  rw [title?, if_pos rfl, hescaped]

theorem titlesIn_title (title : String) (rest : List Piece) :
    titlesIn (line "h4" [] [.text title] ++ rest) = title.toList :: titlesIn rest := by
  have hline : line "h4" [] [.text title] ++ rest =
      .opening "h4" [] :: .text title :: (.closing "h4" :: .text "\n" :: rest) := rfl
  have htags (more : List Piece) (hmore : (cutPieces more).before = []) :
      titlesIn (.opening "h4" [] :: .text title :: more) = title.toList :: titlesIn more := by
    have hcut : (cutPieces (.opening "h4" [] :: .text title :: more)).tags =
        ("h4".toList, escapeChars title.toList ++ (cutPieces more).before) ::
          (cutPieces more).tags := by
      have hopening : Piece.tag? (.opening "h4" []) = some "h4".toList := rfl
      rw [cutPieces, hopening]
      rfl
    rw [titlesIn, hcut, hmore, List.append_nil,
      List.filterMap_cons_some (title?_escapeChars title), titlesIn]
  rw [hline, htags _ rfl, titlesIn_cons (by simp [Piece.name?]), titlesIn_cons (by simp [Piece.name?])]

end Pieces

section Parts

variable {rest : List Piece}

/-- A part is its title, and behind it elements of other names. -/
theorem titlesIn_part {title : String} {contents : List Piece} (hcontents : "h4" ∉ names contents) :
    titlesIn (line "h4" [] [.text title] ++ contents ++ rest) = title.toList :: titlesIn rest := by
  rw [List.append_assoc, titlesIn_title, titlesIn_append hcontents]

theorem titlesIn_parameterTable (parameters : List Parameter) :
    titlesIn (parameterTable parameters ++ rest) =
      (titleIf (!parameters.isEmpty) "Parameters").map String.toList ++ titlesIn rest := by
  have hrows : "h4" ∉ names (block "table" (parameterHeader ++ parameters.flatMap parameterRow)) := by
    rw [names_block, List.mem_cons, not_or]
    exact ⟨by decide, fun hname => absurd (names_parameterRows_subset parameters hname) (by decide)⟩
  cases hparameters : parameters.isEmpty with
  | true => simp [parameterTable, hparameters, titleIf]
  | false =>
      rw [parameterTable, if_neg (by simp [hparameters]), titlesIn_part hrows]
      rfl

theorem titlesIn_returns (value : Return) :
    titlesIn (returns value ++ rest) =
      (titleIf value.types.isSome "Returns").map String.toList ++ titlesIn rest := by
  unfold returns
  cases value.types with
  | none => rfl
  | some types =>
      refine titlesIn_part ?_
      have halternatives : "h4" ∉ names (alternatives types) :=
        fun hname => absurd (names_alternatives_subset types hname) (by decide)
      split
      · split <;> simp [halternatives]
      · simp [halternatives]

theorem titlesIn_titledList {title : String} {entries : List (List Piece)}
    (hentries : ∀ entry ∈ entries, names entry ⊆ ["a"]) :
    titlesIn (titledList title entries ++ rest) =
      (titleIf (!entries.isEmpty) title).map String.toList ++ titlesIn rest := by
  have hlist : "h4" ∉ names (block "ul" (entries.flatMap fun entry =>
      indented (element "li" [] entry))) := by
    rw [names_block, List.mem_cons, not_or]
    exact ⟨by decide, fun hname => absurd (names_entries_subset hentries hname) (by decide)⟩
  cases hempty : entries.isEmpty with
  | true => simp [titledList, hempty, titleIf]
  | false =>
      rw [titledList, if_neg (by simp [hempty]), titlesIn_part hlist]
      rfl

end Parts

/-- A section has a title for every part that the item has. -/
theorem titles_itemPieces (item : Item) :
    titles (String.ofList (printPieces (itemPieces item))) =
      item.partTitles.map String.toList := by
  have hitem : ({ items := [item] } : Document).items[0]? = some item := rfl
  have hcut := cut_printPieces _ (Layout.gives_item hitem).not_mem_tag
  have hother {pieces : List Piece} {allowed : List String} (hallowed : "h4" ∉ allowed)
      (hnames : names pieces ⊆ allowed) (rest : List Piece) :
      titlesIn (pieces ++ rest) = titlesIn rest :=
    titlesIn_append (fun hname => hallowed (hnames hname)) rest
  have hheading : names (heading item) ⊆ ["h3", "span"] := by simp [heading]
  have hauthor : titlesIn (author item.author) = [] := by
    have hnone := hother (by decide) (names_author_subset item.author) []
    rwa [List.append_nil] at hnone
  rw [titles, String.toList_ofList, hcut, ← titlesIn, itemPieces]
  simp only [List.append_assoc]
  rw [hother (by decide) hheading, hother (by decide) (names_deprecation_subset item.deprecated),
    hother (by decide) (names_access_subset item.access),
    hother (by decide) (names_description_subset item.description), titlesIn_parameterTable,
    titlesIn_returns, titlesIn_titledList (names_textEntries_subset item.throws),
    titlesIn_titledList (names_textEntries_subset item.aliases),
    titlesIn_titledList (names_linkEntries_subset item.links),
    titlesIn_titledList (names_textEntries_subset item.todos), hauthor]
  simp [Item.partTitles, textEntries]

end Html

namespace Stylesheet

/-- The headings of an item's section in Markdown are the titles of its section in HTML, provided
that no line of its description looks like such a heading: both name the parts that the item has. -/
theorem headings_eq_titles {content : String} {item : Item} (hitem : item ∈ items content)
    (hdescription : ∀ line ∈ item.description.toList.splitOn '\n', ¬ "#### ".toList <+: line) :
    Markdown.headings (unlines (Markdown.itemLines item)) =
        Html.titles (String.ofList (Html.printPieces (Html.itemPieces item))) ∧
      Html.titles (String.ofList (Html.printPieces (Html.itemPieces item))) =
        item.partTitles.map String.toList := by
  have hformed : item.IsWellFormed := by
    obtain ⟨line, declaration, comments, hheader, hcomments, rfl⟩ := exists_of_mem_items hitem
    rw [Declaration.item, Block.item_eq_ofTags]
    exact Item.isWellFormed_ofTags (fun tag => isWellFormed_of_mem_tags hcomments)
      (Declaration.isName_of_ofLine? hheader) declaration.kind
  have hlines : ∀ line ∈ item.description.toList.splitOn '\n', Markdown.heading? line = none := by
    intro line hline
    refine Option.eq_none_iff_forall_ne_some.mpr fun rest hrest => ?_
    exact hdescription line hline ⟨rest, (literal?_eq_some_iff.mp hrest).symm⟩
  have htitles := Html.titles_itemPieces item
  exact ⟨(Markdown.headings_itemLines hformed hlines).trans htitles.symm, htitles⟩

/-- A function whose texts look like headings in Markdown and like titles in HTML. -/
def seemingSource : String :=
  "/// ### Not a part\n/// @param \x7bT\x7d $a - #### Returns\n/// @todo <h4>Throws</h4>\n" ++
    "/// @link #### Aliases\n@function seem($a) \x7b"

def seeming : Item where
  name := "seem"
  description := "### Not a part"
  parameters := [{ type := "T", name := "$a", description := "#### Returns" }]
  todos := ["<h4>Throws</h4>"]
  links := [{ url := "####", caption := some "Aliases" }]

theorem headings_eq_titles_seeming :
    seeming ∈ items seemingSource ∧
      (∀ line ∈ seeming.description.toList.splitOn '\n', ¬ "#### ".toList <+: line) ∧
      Markdown.headings (unlines (Markdown.itemLines seeming)) =
        Html.titles (String.ofList (Html.printPieces (Html.itemPieces seeming))) ∧
      Html.titles (String.ofList (Html.printPieces (Html.itemPieces seeming))) =
        ["Parameters".toList, "See also".toList, "Todo".toList] := by
  have hitem : seeming ∈ items seemingSource := by decide +kernel
  have hdescription :
      ∀ line ∈ seeming.description.toList.splitOn '\n', ¬ "#### ".toList <+: line := by
    decide +kernel
  have htitles : seeming.partTitles.map String.toList =
      ["Parameters".toList, "See also".toList, "Todo".toList] := by
    decide
  obtain ⟨hsame, hparts⟩ := headings_eq_titles hitem hdescription
  exact ⟨hitem, hdescription, hsame, hparts.trans htitles⟩

end Stylesheet

end StyleDoc
