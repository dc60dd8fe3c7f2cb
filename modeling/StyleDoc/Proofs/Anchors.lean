import StyleDoc.Proofs.Html.References
import StyleDoc.Proofs.Slugs
import StyleDoc.Proofs.Titles

/-!
Where the items of a document are found. Index and sections of a page in either format go by the
anchors of the items, in their order. An anchor is made of characters that mean nothing in Markdown
or HTML, so it is read off the page unchanged; kinds keep their anchors apart, and two items of one
kind share an anchor if their names differ in case only.
-/

namespace StyleDoc

namespace Slug

/-- What markup is made of is never part of a slug. -/
theorem ne_of_isSlugChar {c : Char} (hc : isSlugChar c = true) :
    ∀ mark ∈ ['&', '<', '>', '"', '(', ')', '[', ']'], c ≠ mark := by
  have hmarks : ['&', '<', '>', '"', '(', ')', '[', ']'].all (!isSlugChar ·) = true := by
    decide +kernel
  rintro mark hmark rfl
  have hlost := List.all_eq_true.mp hmarks c hmark
  rw [hc] at hlost
  cases hlost

end Slug

theorem Item.not_mem_anchor (item : Item) {mark : Char}
    (hmark : mark ∈ ['&', '<', '>', '"', '(', ')', '[', ']']) : mark ∉ item.anchor.toList :=
  fun hmem => Slug.ne_of_isSlugChar (isSlugChar_of_mem_anchor hmem) mark hmark rfl

namespace Html

theorem escapeChars_anchor (item : Item) :
    escapeChars item.anchor.toList = item.anchor.toList := by
  refine escapeChars_eq_self fun c hc => ?_
  have hplain := Slug.ne_of_isSlugChar (Item.isSlugChar_of_mem_anchor hc)
  exact ⟨hplain '&' (by decide), by simp [IsMarkup, hplain]⟩

/-- The tags of a page, without their angle brackets. -/
def tagsOf (page : String) : List (List Char) :=
  (cut page.toList).tags.map Prod.fst

/-- What the sections of a page are called: the `id` of each heading. -/
def headingIds (page : String) : List (List Char) :=
  (tagsOf page).filterMap (value? "h3" "id")

/-- What the index of a page points to: the links in front of the first heading of a section. -/
def indexLinks (page : String) : List (List Char) :=
  ((tagsOf page).takeWhile fun tag => (value? "h3" "id" tag).isNone).filterMap (value? "a" "href")

section Values

variable {document : Document}

theorem values_heading (item : Item) : values "h3" "id" (heading item) = [item.anchor] := by
  simp [heading, kindMark, Piece.value?]

theorem values_index (items : List Item) :
    values "a" "href" (index items) = items.map fun item => "#" ++ item.anchor := by
  have hentry (item : Item) : values "a" "href" (indexEntry item) = ["#" ++ item.anchor] := by
    simp [indexEntry, kindMark, Piece.value?]
  have hentries : values "a" "href" (items.flatMap indexEntry) =
      items.map fun item => "#" ++ item.anchor := by
    simp only [values_flatMap, hentry, List.map_eq_flatMap]
  unfold index
  split
  · simp_all
  · simp [hentries, Piece.value?]

/-- Behind the heading of a section there is no other one of its kind. -/
theorem values_itemPieces (item : Item) : values "h3" "id" (itemPieces item) = [item.anchor] := by
  have hnone {pieces : List Piece} {allowed : List String} (hallowed : "h3" ∉ allowed)
      (hnames : names pieces ⊆ allowed) : values "h3" "id" pieces = [] :=
    values_eq_nil fun hname => hallowed (hnames hname)
  have htexts (title : String) (texts : List String) :
      values "h3" "id" (titledList title (textEntries texts)) = [] :=
    hnone (by decide) (names_titledList_subset (names_textEntries_subset texts))
  simp only [itemPieces, values_append, values_heading, htexts,
    hnone (by decide) (names_deprecation_subset item.deprecated),
    hnone (by decide) (names_access_subset item.access),
    hnone (by decide) (names_description_subset item.description),
    hnone (by decide) (names_parameterTable_subset item.parameters),
    hnone (by decide) (names_returns_subset item.returns),
    hnone (by decide) (names_titledList_subset (names_linkEntries_subset item.links)),
    hnone (by decide) (names_author_subset item.author), List.append_nil]

/-- A page has its index in front of its sections, and neither stands in what is around them. -/
theorem exists_pagePieces_eq (document : Document) :
    ∃ front back,
      pagePieces document =
        (front ++ index document.items) ++ (document.items.flatMap itemPieces ++ back) ∧
      names front ⊆ ["html", "head", "meta", "title", "style", "body", "h1"] ∧
      names back = [] := by
  refine ⟨.doctype :: lineEnd ++ .opening "html" [] :: lineEnd ++ head document.title ++
    .opening "body" [] :: lineEnd ++ titleLine "h1" document.title,
    .closing "body" :: lineEnd ++ .closing "html" :: lineEnd, ?_, ?_, rfl⟩
  · simp [pagePieces, body, block, element]
  · have htitle := List.Subset.trans (names_titleLine_subset "h1" document.title)
      (by simp : ["h1"] ⊆ ["html", "head", "meta", "title", "style", "body", "h1"])
    have hhead := List.Subset.trans (names_head_subset document.title)
      (by simp : ["head", "meta", "title", "style"] ⊆
        ["html", "head", "meta", "title", "style", "body", "h1"])
    simp [htitle, hhead]

theorem tagsOf_page (document : Document) :
    tagsOf (page document) = (pagePieces document).filterMap Piece.tag? := by
  have hgives := Layout.gives_page document
  rw [tagsOf, page, String.toList_ofList, cut_printPieces _ hgives.not_mem_tag, tags_cutPieces]

theorem headingIds_page (document : Document) :
    headingIds (page document) = document.items.map fun item => item.anchor.toList := by
  obtain ⟨front, back, hpage, hfront, hback⟩ := exists_pagePieces_eq document
  have hvalues : values "h3" "id" (pagePieces document) = document.items.map Item.anchor := by
    have hstart : values "h3" "id" front = [] :=
      values_eq_nil fun hname => absurd (hfront hname) (by decide)
    have hindex : values "h3" "id" (index document.items) = [] :=
      values_eq_nil fun hname => absurd (names_index_subset document.items hname) (by decide)
    have hend : values "h3" "id" back = [] := values_eq_nil (by simp [hback])
    simp only [hpage, values_append, hstart, hindex, hend, values_flatMap, values_itemPieces,
      List.nil_append, List.append_nil, List.map_eq_flatMap]
  have hread : ((pagePieces document).filterMap Piece.tag?).filterMap (value? "h3" "id") =
      (values "h3" "id" (pagePieces document)).map fun value => escapeChars value.toList :=
    filterMap_value?_tags (Layout.gives_page document).isPagePiece .h3 (by decide)
  rw [headingIds, tagsOf_page, hread, hvalues]
  simp [escapeChars_anchor]

theorem escapeChars_fragment (item : Item) :
    escapeChars ('#' :: item.anchor.toList) = '#' :: item.anchor.toList := by
  have hmark : escapeChar '#' = ['#'] := by decide
  rw [escapeChars, List.flatMap_cons, hmark, List.singleton_append, ← escapeChars,
    escapeChars_anchor]

/-- Nothing behind the first heading is read as a link of the index. -/
theorem filterMap_takeWhile_sections {document : Document} {back : List Piece}
    (hpieces : ∀ piece ∈ document.items.flatMap itemPieces ++ back, IsPagePiece document piece)
    (hback : names back = []) :
    (((document.items.flatMap itemPieces ++ back).filterMap Piece.tag?).takeWhile
      fun tag => (value? "h3" "id" tag).isNone).filterMap (value? "a" "href") = [] := by
  cases hitems : document.items with
  | nil =>
      rw [hitems] at hpieces
      have hnone : (back.filterMap Piece.tag?).filterMap (value? "a" "href") = [] :=
        filterMap_value?_tags_eq_nil hpieces .a (by decide) (by simp [hback])
      rw [List.filterMap_eq_nil_iff] at hnone ⊢
      exact fun tag htag => hnone tag (List.takeWhile_subset _ htag)
  | cons item items =>
      have htag : value? "h3" "id" (Element.h3.tag (printAttribute ("id", item.anchor))) =
          some (escapeChars item.anchor.toList) :=
        (value?_printAttribute .h3 .h3 (by decide) (by decide) item.anchor).trans
          (if_pos ⟨rfl, rfl⟩)
      obtain ⟨rest, hrest⟩ : ∃ rest, (item :: items).flatMap itemPieces ++ back =
          .opening "h3" [("id", item.anchor)] :: rest := ⟨_, rfl⟩
      have hheading : Piece.tag? (.opening "h3" [("id", item.anchor)]) =
          some (Element.h3.tag (printAttribute ("id", item.anchor))) := by
        simp [Piece.tag?, Element.tag, Element.name]
      rw [hrest, List.filterMap_cons_some hheading, List.takeWhile_cons_of_neg (by simp [htag]),
        List.filterMap_nil]

/-- The sections of a page begin with a heading, so no link in them belongs to the index. -/
theorem indexLinks_page (document : Document) :
    indexLinks (page document) = document.items.map fun item => '#' :: item.anchor.toList := by
  obtain ⟨front, back, hpage, hfront, hback⟩ := exists_pagePieces_eq document
  have hpieces := (Layout.gives_page document).isPagePiece
  rw [hpage, List.forall_mem_append] at hpieces
  obtain ⟨hstart, hsections⟩ := hpieces
  have hheadings : ∀ tag ∈ (front ++ index document.items).filterMap Piece.tag?,
      (value? "h3" "id" tag).isNone = true := by
    have hname : "h3" ∉ names (front ++ index document.items) := by
      rw [names_append, List.mem_append]
      rintro (hname | hname)
      · exact absurd (hfront hname) (by decide)
      · exact absurd (names_index_subset document.items hname) (by decide)
    have hnone := filterMap_value?_tags_eq_nil hstart .h3 (by decide : '=' ∉ "id".toList) hname
    rw [List.filterMap_eq_nil_iff] at hnone
    exact fun tag htag => Option.isNone_iff_eq_none.mpr (hnone tag htag)
  have hvalues : values "a" "href" (front ++ index document.items) =
      document.items.map fun item => "#" ++ item.anchor := by
    have hnone : values "a" "href" front = [] :=
      values_eq_nil fun hname => absurd (hfront hname) (by decide)
    rw [values_append, hnone, values_index, List.nil_append]
  have hlinks :
      ((front ++ index document.items).filterMap Piece.tag?).filterMap (value? "a" "href") =
        (values "a" "href" (front ++ index document.items)).map fun value =>
          escapeChars value.toList :=
    filterMap_value?_tags hstart .a (by decide)
  rw [indexLinks, tagsOf_page, hpage, List.filterMap_append, List.takeWhile_append_of_pos hheadings,
    List.filterMap_append, hlinks, hvalues, filterMap_takeWhile_sections hsections hback]
  simp [escapeChars_fragment]

end Values

end Html

namespace Markdown

open Text

/-- What stands behind the last occurrence of a word in a text. -/
def behindLast? (word : List Char) : List Char → Option (List Char)
  | [] => none
  | c :: rest =>
      match behindLast? word rest with
      | some behind => some behind
      | none => literal? word (c :: rest)

/-- What an index entry points to: the text behind the last `](#`, up to a parenthesis. -/
def target? (entry : String) : Option (List Char) :=
  (behindLast? "](#".toList entry.toList).map fun behind => behind.takeWhile (· ≠ ')')

/-- The section of one item. -/
def sectionText (item : Item) : String :=
  unlines (itemLines item)

/-- The `id` of the element that a text opens with. -/
def openingId? (text : String) : Option (List Char) :=
  match text.toList with
  | '<' :: rest => Html.value? "a" "id" rest
  | _ => none

theorem behindLast?_eq_none {mark : Char} (word : List Char) {text : List Char}
    (htext : mark ∉ text) : behindLast? (mark :: word) text = none := by
  induction text with
  | nil => rfl
  | cons c text ih =>
      obtain ⟨hc, htext⟩ := List.ne_and_not_mem_of_not_mem_cons htext
      simp [behindLast?, ih htext, literal?, hc]

theorem behindLast?_append {word text behind : List Char}
    (hbehind : behindLast? word text = some behind) (front : List Char) :
    behindLast? word (front ++ text) = some behind := by
  induction front with
  | nil => exact hbehind
  | cons c front ih => simp [behindLast?, ih]

/-- The last occurrence of a word is one behind which its first character does not occur. -/
theorem behindLast?_word {mark : Char} {word behind : List Char} (hword : mark ∉ word)
    (hbehind : mark ∉ behind) (front : List Char) :
    behindLast? (mark :: word) (front ++ mark :: (word ++ behind)) = some behind := by
  refine behindLast?_append ?_ front
  have hnone := behindLast?_eq_none word (List.not_mem_append hword hbehind)
  rw [behindLast?, hnone]
  exact literal?_eq_some_iff.mpr rfl

/-- Whatever the name in an entry, the anchor stands in its last parentheses but one. -/
theorem target?_indexEntry (item : Item) :
    target? (indexEntry item) = some item.anchor.toList := by
  have hentry : indexEntry item =
      "* [" ++ item.name ++ "](#" ++ item.anchor ++ ") (" ++ item.kind.keyword ++ ")" := rfl
  have htext : (indexEntry item).toList =
      ("* [" ++ item.name).toList ++ ']' :: (['(', '#'] ++
        (item.anchor.toList ++ ')' :: (" (" ++ item.kind.keyword ++ ")").toList)) := by
    simp [hentry]
  have hkeyword : ']' ∉ ')' :: (" (" ++ item.kind.keyword ++ ")").toList := by
    cases item.kind <;> decide
  have hbehind := List.not_mem_append (item.not_mem_anchor (by decide)) hkeyword
  have hmark : "](#".toList = ']' :: ['(', '#'] := rfl
  rw [target?, htext, hmark, behindLast?_word (by decide) hbehind, Option.map_some,
    takeWhile_ne_append (item.not_mem_anchor (by decide))]

theorem openingId?_sectionText (item : Item) :
    openingId? (sectionText item) = some item.anchor.toList := by
  obtain ⟨rest, hrest⟩ : ∃ rest, itemLines item =
      ("<a id=\"" ++ item.anchor ++ "\"></a>") :: rest := ⟨_, rfl⟩
  have htext : (sectionText item).toList =
      '<' :: ("a id=\"".toList ++ (item.anchor.toList ++ '"' :: ("></a>\n".toList ++
        (unlines rest).toList))) := by
    simp [sectionText, hrest, toList_unlines_cons]
  have hread : Html.value? "a" "id" ("a id=\"".toList ++ (item.anchor.toList ++ '"' ::
      ("></a>\n".toList ++ (unlines rest).toList))) = some item.anchor.toList := by
    have hname : literal? ("a".toList ++ ' ' :: ("id".toList ++ ['=', '"']))
        ("a id=\"".toList ++ (item.anchor.toList ++ '"' ::
          ("></a>\n".toList ++ (unlines rest).toList))) = some _ :=
      literal?_eq_some_iff.mpr rfl
    rw [Html.value?, hname, Option.map_some, takeWhile_ne_append (item.not_mem_anchor (by decide))]
  rw [openingId?, htext]
  exact hread

/-- A page has the entries of its index and then the sections, with an empty line in between. -/
theorem toList_page {document : Document} (hitems : document.items ≠ []) :
    (page document).toList =
      (unlines (titleLines document.title ++ ["## Index", ""])).toList ++
        (document.items.flatMap fun item => (indexEntry item).toList ++ ['\n']) ++
          '\n' :: document.items.flatMap fun item => (sectionText item).toList := by
  have hindex : indexLines document.items =
      ["## Index", ""] ++ (document.items.map indexEntry ++ [""]) := by
    simp [indexLines, hitems]
  have hsections : (unlines (document.items.flatMap itemLines)).toList =
      document.items.flatMap fun item => (sectionText item).toList := by
    simp [unlines, sectionText, List.flatMap_assoc]
  rw [page, pageLines, hindex]
  simp only [unlines_append, String.toList_append, hsections, List.append_assoc]
  simp [unlines, List.flatMap_map]

end Markdown

/-- The pages of a document go by the given anchors, one for each of its items in order. A page in
Markdown consists of its index entries and its sections; in HTML both are read off the tags. -/
structure Document.GoesBy (document : Document) (anchors : List (List Char)) : Prop where
  markdown : document.items ≠ [] →
    (Markdown.page document).toList =
      (Text.unlines (Markdown.titleLines document.title ++ ["## Index", ""])).toList ++
        (document.items.flatMap fun item => (Markdown.indexEntry item).toList ++ ['\n']) ++
          '\n' :: document.items.flatMap fun item => (Markdown.sectionText item).toList
  entries : document.items.map (fun item => Markdown.target? (Markdown.indexEntry item)) =
    anchors.map some
  sections : document.items.map (fun item => Markdown.openingId? (Markdown.sectionText item)) =
    anchors.map some
  links : Html.indexLinks (Html.page document) = anchors.map ('#' :: ·)
  headings : Html.headingIds (Html.page document) = anchors

/-- Both formats point to the sections of a page by the same anchors. An anchor is not empty, of
letters, digits, hyphens and underscores only, and written in HTML as it is. Items of different
kinds have different anchors; items of one kind with plain names share an anchor exactly if the
names are equal up to the case of their letters. -/
theorem anchors_agree :
    (∀ document : Document,
      document.GoesBy (document.items.map fun item => item.anchor.toList)) ∧
    (∀ item : Item, item.anchor ≠ "" ∧
      (∀ c ∈ item.anchor.toList, Unicode.isAlphanumeric c = true ∨ c = '-' ∨ c = '_') ∧
      Html.escape item.anchor = item.anchor) ∧
    (∀ item other : Item, item.kind ≠ other.kind → item.anchor ≠ other.anchor) ∧
    (∀ item other : Item, item.kind = other.kind →
      (∀ c ∈ item.name.toList, Text.isNameChar c = true) →
      (∀ c ∈ other.name.toList, Text.isNameChar c = true) →
      (item.anchor = other.anchor ↔ item.name.toLower = other.name.toLower)) := by
  refine ⟨fun document => ?_, fun item => ⟨item.anchor_ne_empty, fun c hc => ?_, ?_⟩,
    fun _ _ => Item.anchor_ne_of_kind_ne, fun _ _ => Item.anchor_eq_iff⟩
  · exact {
      markdown := Markdown.toList_page
      entries := by simp [Markdown.target?_indexEntry]
      sections := by simp [Markdown.openingId?_sectionText]
      links := by simp [Html.indexLinks_page]
      headings := Html.headingIds_page document }
  · have hslug := Item.isSlugChar_of_mem_anchor hc
    simpa [Slug.isSlugChar, or_assoc] using hslug
  · rw [Html.escape, Html.escapeChars_anchor, String.ofList_toList]

/-- A function and a mixin of one name. The two letters sigma in it are lowered differently, and the
angle brackets are lost. -/
def sigmaDocument : Document where
  items := [{ name := "ΑΣ<Σ>" }, { kind := .mixin, name := "ΑΣ<Σ>" }]

theorem anchors_agree_sigma :
    (Html.indexLinks (Html.page sigmaDocument) =
        ["#function-αςσ".toList, "#mixin-αςσ".toList] ∧
      Html.headingIds (Html.page sigmaDocument) = ["function-αςσ".toList, "mixin-αςσ".toList]) ∧
      ({ name := "ΑΣ<Σ>" } : Item).anchor ≠ ({ kind := .mixin, name := "ΑΣ<Σ>" } : Item).anchor ∧
      ({ name := "Rem_2" } : Item).anchor = ({ name := "rEM_2" } : Item).anchor := by
  obtain ⟨hpages, -, hkinds, hnames⟩ := anchors_agree
  have hgoes := hpages sigmaDocument
  have hanchors : (sigmaDocument.items.map fun item => item.anchor.toList) =
      ["function-αςσ".toList, "mixin-αςσ".toList] := by
    decide +kernel
  rw [hanchors] at hgoes
  have hlower : "Rem_2".toLower = "rEM_2".toLower := by
    rw [← String.toList_inj, Text.toList_toLower, Text.toList_toLower]
    decide
  have hcases := hnames { name := "Rem_2" } { name := "rEM_2" } rfl
    (List.all_eq_true.mp (by decide)) (List.all_eq_true.mp (by decide))
  exact ⟨⟨hgoes.links, hgoes.headings⟩,
    hkinds { name := "ΑΣ<Σ>" } { kind := .mixin, name := "ΑΣ<Σ>" } (by decide),
    hcases.mpr hlower⟩

end StyleDoc
