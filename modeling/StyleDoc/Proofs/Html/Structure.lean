import StyleDoc.Proofs.Html.Filling
import Mathlib.Data.List.Forall2

/-!
No text of a document alters the structure of its page. Cut at its angle brackets, a page falls
into the tags and the words of its layout, and each hole of the layout is taken by an escaped text.
So the tags are nested, and but for the values of `id` and `href` they are the same in all pages of
one shape. Each of these is carried through a layout node by node.
-/

namespace StyleDoc.Html

/-- An attribute as it is printed, without what it refers to. -/
def Attribute.blank : Attribute → List Char
  | .kindMark kind => printAttribute ("class", "tag tag-" ++ kind.keyword)
  | .deprecated => printAttribute ("class", "deprecated")
  | .id _ => printAttribute ("id", "")
  | .fragment _ => printAttribute ("href", "")
  | .address _ => printAttribute ("href", "")

/-- The opening tag of an element. -/
def Element.tag (element : Element) (attributes : List Char) : List Char :=
  element.name.toList ++ attributes

/-- The closing tag of an element. -/
def Element.closing (element : Element) : List Char :=
  '/' :: element.name.toList

/-- The tags of a layout in the order of the page, without what they refer to. -/
def Layout.tags : Layout → List (List Char)
  | .nil => []
  | .words _ rest => rest.tags
  | .hole _ rest => rest.tags
  | .doctype rest => "!DOCTYPE html".toList :: rest.tags
  | .charset rest => "meta charset=\"utf-8\"".toList :: rest.tags
  | .node element attr contents rest =>
      element.tag ((attr.map Attribute.blank).getD []) ::
        (contents.tags ++ element.closing :: rest.tags)

/-- A part of a run of characters: markup and fixed words, which stand as they are, or a text of the
document. -/
inductive Part where
  | markup (characters : List Char)
  | hole (field : Document.Field)
  deriving DecidableEq, Repr

/-- The parts of an attribute as it is printed. -/
def Attribute.parts : Attribute → List Part
  | .kindMark kind => [.markup (printAttribute ("class", "tag tag-" ++ kind.keyword))]
  | .deprecated => [.markup (printAttribute ("class", "deprecated"))]
  | .id field => [.markup " id=\"".toList, .hole field, .markup ['"']]
  | .fragment field => [.markup " href=\"#".toList, .hole field, .markup ['"']]
  | .address field => [.markup " href=\"".toList, .hole field, .markup ['"']]

/-- The parts of a layout, cut at its tags, in front of what has been cut already. -/
def Layout.cutOnto (behind : Cut Part) : Layout → Cut Part
  | .nil => behind
  | .words text rest => (rest.cutOnto behind).run [.markup (escapeChars text.toList)]
  | .hole field rest => (rest.cutOnto behind).run [.hole field]
  | .doctype rest => (rest.cutOnto behind).tag [.markup "!DOCTYPE html".toList]
  | .charset rest => (rest.cutOnto behind).tag [.markup "meta charset=\"utf-8\"".toList]
  | .node element attr contents rest =>
      (contents.cutOnto ((rest.cutOnto behind).tag [.markup element.closing])).tag
        (.markup element.name.toList :: (attr.map Attribute.parts).getD [])

/-- A run of characters that consists of the given parts. What stands for a text of the document
has no character of markup, and wherever it stands it is decoded to that text. -/
inductive IsFilled (document : Document) : List Part → List Char → Prop where
  | nil : IsFilled document [] []
  | markup (characters : List Char) {parts : List Part} {run : List Char} :
      IsFilled document parts run →
      IsFilled document (.markup characters :: parts) (characters ++ run)
  | hole {field : Document.Field} {text : String} {written : List Char} {parts : List Part}
      {run : List Char} :
      document.text? field = some text →
      (∀ rest, decodeChars (written ++ rest) = text.toList ++ decodeChars rest) →
      (∀ c ∈ written, ¬ IsMarkup c) →
      IsFilled document parts run →
      IsFilled document (.hole field :: parts) (written ++ run)

/-- Every run of a cut page, in a tag or between tags, consists of the parts that stand in its
place. -/
structure Cut.IsFilled (document : Document) (parts : Cut Part) (page : Cut Char) : Prop where
  before : Html.IsFilled document parts.before page.before
  tags : List.Forall₂ (fun expected found =>
    Html.IsFilled document expected.1 found.1 ∧ Html.IsFilled document expected.2 found.2)
    parts.tags page.tags

section Tags

theorem not_mem_printAttribute {name value : String} (hname : '>' ∉ name.toList) :
    '>' ∉ printAttribute (name, value) := by
  have hvalue : '>' ∉ escapeChars value.toList :=
    fun hmem => not_isMarkup_of_mem_escapeChars hmem (by decide)
  simp [printAttribute, hname, hvalue]

theorem Element.not_mem_name (element : Element) {c : Char} (hc : c ∈ [' ', '"', '/', '>']) :
    c ∉ element.name.toList := by
  have hplain : [' ', '"', '/', '>'].all (· ∉ element.name.toList) := by cases element <;> decide
  exact of_decide_eq_true (List.all_eq_true.mp hplain c hc)

variable {document : Document} {attr : Option Attribute} {attributes : List (String × String)}
variable {layout : Layout} {pieces : List Piece}

theorem Attribute.Gives.not_mem_print (hattr : Attribute.Gives document attr attributes) :
    '>' ∉ attributes.flatMap printAttribute := by
  cases hattr with
  | none => exact List.not_mem_nil
  | kindMark kind => simpa using not_mem_printAttribute (by decide)
  | deprecated => simpa using not_mem_printAttribute (by decide)
  | id _ => simpa using not_mem_printAttribute (by decide)
  | fragment _ => simpa using not_mem_printAttribute (by decide)
  | address _ => simpa using not_mem_printAttribute (by decide)

/-- Every tag of a filled layout ends where it was meant to end. -/
theorem Layout.Gives.not_mem_tag (hlayout : Layout.Gives document layout pieces) :
    ∀ piece ∈ pieces, ∀ tag ∈ piece.tag?, '>' ∉ tag := by
  induction hlayout with
  | nil => exact fun _ hpiece => absurd hpiece List.not_mem_nil
  | words text _ ih => exact List.forall_mem_cons.mpr ⟨fun _ htag => (nomatch htag), ih⟩
  | hole _ _ ih => exact List.forall_mem_cons.mpr ⟨fun _ htag => (nomatch htag), ih⟩
  | doctype _ ih =>
      refine List.forall_mem_cons.mpr ⟨fun tag htag => ?_, ih⟩
      cases htag
      decide
  | charset _ ih =>
      refine List.forall_mem_cons.mpr ⟨fun tag htag => ?_, ih⟩
      cases htag
      decide
  | @node element attr attributes _ _ inside pieces hattr _ _ ihcontents ihrest =>
      have hname : '>' ∉ element.name.toList := element.not_mem_name (by decide)
      have hopening : ∀ tag ∈ (Piece.opening element.name attributes).tag?, '>' ∉ tag := by
        intro tag htag
        cases htag
        exact List.not_mem_append hname hattr.not_mem_print
      have hclosing : ∀ tag ∈ (Piece.closing element.name).tag?, '>' ∉ tag := by
        intro tag htag
        cases htag
        simpa using hname
      intro piece hpiece
      rcases List.mem_append.mp hpiece with helement | hrest
      · rcases List.mem_cons.mp helement with rfl | hinside
        · exact hopening
        · rcases List.mem_append.mp hinside with hinside | hlast
          · exact ihcontents piece hinside
          · rw [List.mem_singleton.mp hlast]
            exact hclosing
      · exact ihrest piece hrest

/-- The attributes of a tag are set off from its name. -/
theorem Attribute.Gives.takeWhile_print (hattr : Attribute.Gives document attr attributes) :
    (attributes.flatMap printAttribute).takeWhile (· ≠ ' ') = [] := by
  cases hattr <;> rfl

theorem stillOpen_opening (element : Element) {attributes : List Char}
    (hattributes : attributes.takeWhile (· ≠ ' ') = []) (opened tags : List (List Char)) :
    stillOpen opened (element.tag attributes :: tags) =
      stillOpen (element.name.toList :: opened) tags := by
  have hname : (element.tag attributes).takeWhile (· ≠ ' ') = element.name.toList := by
    have hspace : ∀ c ∈ element.name.toList, decide (c ≠ ' ') = true := fun c hc =>
      decide_eq_true fun heq => element.not_mem_name (by decide) (heq ▸ hc)
    rw [Element.tag, List.takeWhile_append_of_pos hspace, hattributes, List.append_nil]
  have hopens :
      ¬ (element.name.toList = "!DOCTYPE".toList ∨ element.name.toList = "meta".toList) := by
    cases element <;> decide
  have hslash : ∀ closed, element.tag attributes ≠ '/' :: closed := fun closed heq => by
    rw [heq, List.takeWhile_cons_of_pos (by decide)] at hname
    exact element.not_mem_name (by decide) (hname ▸ List.mem_cons_self)
  simp only [stillOpen, hname, if_neg hopens]
  split
  · exact absurd ‹_› (hslash _)
  · exact absurd ‹_› (hslash _)
  · rfl

theorem stillOpen_closing (element : Element) (opened tags : List (List Char)) :
    stillOpen (element.name.toList :: opened) (element.closing :: tags) =
      stillOpen opened tags := by
  simp [stillOpen, Element.closing]

/-- An element of a page brings its two tags, around those of its contents. -/
theorem filterMap_tag?_element (element : Element) (attributes : List (String × String))
    (inside pieces : List Piece) :
    (Html.element element.name attributes inside ++ pieces).filterMap Piece.tag? =
      element.tag (attributes.flatMap printAttribute) ::
        (inside.filterMap Piece.tag? ++ element.closing :: pieces.filterMap Piece.tag?) := by
  have hopening : (Piece.opening element.name attributes).tag? =
      some (element.tag (attributes.flatMap printAttribute)) := rfl
  have hclosing : (Piece.closing element.name).tag? = some element.closing := rfl
  rw [Html.element, List.cons_append, List.cons_append, List.append_assoc,
    List.filterMap_cons_some hopening, List.filterMap_append, List.singleton_append,
    List.filterMap_cons_some hclosing]

/-- A filled layout closes what it opens, whatever is open around it. -/
theorem Layout.Gives.stillOpen (hlayout : Layout.Gives document layout pieces)
    (opened rest : List (List Char)) :
    Html.stillOpen opened (pieces.filterMap Piece.tag? ++ rest) = Html.stillOpen opened rest := by
  -- The contents of a node stand under one more open element, and its closing tag behind them.
  induction hlayout generalizing opened rest with
  | nil => rfl
  | words text _ ih => exact ih opened rest
  | hole _ _ ih => exact ih opened rest
  | doctype _ ih => exact ih opened rest
  | charset _ ih => exact ih opened rest
  | @node element attr attributes _ _ inside pieces hattr _ _ ihcontents ihrest =>
      rw [filterMap_tag?_element, List.cons_append, List.append_assoc,
        stillOpen_opening element hattr.takeWhile_print, ihcontents, List.cons_append,
        stillOpen_closing, ihrest]

theorem Element.tag_printAttribute (element : Element) (name value : String) :
    element.tag (printAttribute (name, value)) =
      (element.name.toList ++ ' ' :: (name.toList ++ ['='])) ++
        '"' :: (escapeChars value.toList ++ ['"']) := by
  simp [Element.tag, printAttribute]

/-- Of the attributes of a page, those that refer to something are blanked. -/
theorem Element.blanked_reference (element : Element) {name : String}
    (hname : name ∈ ["id", "href"]) (value : String) :
    Html.blanked (element.tag (printAttribute (name, value))) =
      element.tag (printAttribute (name, "")) := by
  have hquote : ∀ name ∈ ["id", "href"], '"' ∉ name.toList := by decide
  have hfront : '"' ∉ element.name.toList ++ ' ' :: (name.toList ++ ['=']) := by
    simp [hquote name hname, element.not_mem_name]
  have hvalue : '"' ∉ escapeChars value.toList :=
    fun hmem => not_isMarkup_of_mem_escapeChars hmem (by decide)
  have hreference : ∀ name ∈ ["id", "href"],
      ' ' :: (name.toList ++ ['=']) = " id=".toList ∨
        ' ' :: (name.toList ++ ['=']) = " href=".toList := by decide
  rw [Element.tag_printAttribute, blanked_value hfront hvalue, Element.tag_printAttribute, if_pos]
  · rfl
  · rcases hreference name hname with heq | heq
    · exact Or.inl (heq ▸ List.suffix_append _ _)
    · exact Or.inr (heq ▸ List.suffix_append _ _)

theorem Element.blanked_class (element : Element) (value : String) :
    Html.blanked (element.tag (printAttribute ("class", value))) =
      element.tag (printAttribute ("class", value)) := by
  have hfront : '"' ∉ element.name.toList ++ " class=".toList := by
    cases element <;> decide
  have hvalue : '"' ∉ escapeChars value.toList :=
    fun hmem => not_isMarkup_of_mem_escapeChars hmem (by decide)
  have hkept : ¬ (" id=".toList <:+ element.name.toList ++ " class=".toList ∨
      " href=".toList <:+ element.name.toList ++ " class=".toList) := by
    cases element <;> decide
  have hblanked := blanked_value hfront hvalue
  rw [if_neg hkept] at hblanked
  rw [Element.tag_printAttribute]
  exact hblanked

theorem Attribute.Gives.blanked (hattr : Attribute.Gives document attr attributes)
    (element : Element) :
    Html.blanked (element.tag (attributes.flatMap printAttribute)) =
      element.tag ((attr.map Attribute.blank).getD []) := by
  cases hattr with
  | none =>
      refine blanked_of_not_mem ?_
      simpa [Element.tag] using element.not_mem_name (by decide)
  | kindMark kind =>
      rw [List.flatMap_singleton]
      exact element.blanked_class _
  | deprecated =>
      rw [List.flatMap_singleton]
      exact element.blanked_class _
  | id _ =>
      rw [List.flatMap_singleton]
      exact element.blanked_reference (by decide) _
  | fragment _ =>
      rw [List.flatMap_singleton]
      exact element.blanked_reference (by decide) _
  | address _ =>
      rw [List.flatMap_singleton]
      exact element.blanked_reference (by decide) _

/-- Once what they refer to is blanked, the tags of a filled layout are those of the layout. -/
theorem Layout.Gives.blanked (hlayout : Layout.Gives document layout pieces) :
    (pieces.filterMap Piece.tag?).map Html.blanked = layout.tags := by
  induction hlayout with
  | nil => rfl
  | words text _ ih => exact ih
  | hole _ _ ih => exact ih
  | doctype _ ih => exact congrArg₂ List.cons (blanked_of_not_mem (by decide)) ih
  | charset _ ih => exact congrArg₂ List.cons (by decide) ih
  | @node element attr attributes _ _ inside pieces hattr _ _ ihcontents ihrest =>
      have hclosing : '"' ∉ element.closing := by
        simpa [Element.closing] using element.not_mem_name (by decide)
      rw [filterMap_tag?_element, List.map_cons, List.map_append, List.map_cons, ihcontents,
        ihrest, hattr.blanked, blanked_of_not_mem hclosing]
      rfl

end Tags

section Filled

variable {document : Document} {parts : List Part} {written : List Char}
variable {attr : Option Attribute} {attributes : List (String × String)}
variable {layout : Layout} {pieces : List Piece} {behind : Cut Part} {page : Cut Char}

theorem IsFilled.append {more : List Part} {rest : List Char}
    (hwritten : IsFilled document parts written) (hrest : IsFilled document more rest) :
    IsFilled document (parts ++ more) (written ++ rest) := by
  induction hwritten with
  | nil => exact hrest
  | markup characters _ ih =>
      rw [List.append_assoc]
      exact .markup characters ih
  | hole htext hdecode hplain _ ih =>
      rw [List.append_assoc]
      exact .hole htext hdecode hplain ih

theorem isFilled_markup (characters : List Char) :
    IsFilled document [.markup characters] characters := by
  have hfilled := IsFilled.markup characters (IsFilled.nil : IsFilled document [] [])
  rwa [List.append_nil] at hfilled

theorem isFilled_escapeChars {field : Document.Field} {text : String}
    (htext : document.text? field = some text) :
    IsFilled document [.hole field] (escapeChars text.toList) := by
  simpa using IsFilled.hole htext (decodeChars_escapeChars_append text.toList)
    (fun _ => not_isMarkup_of_mem_escapeChars) .nil

theorem Cut.IsFilled.run (hpage : Cut.IsFilled document behind page)
    (hrun : Html.IsFilled document parts written) :
    Cut.IsFilled document (behind.run parts) (page.run written) :=
  ⟨hrun.append hpage.before, hpage.tags⟩

theorem Cut.IsFilled.tag (hpage : Cut.IsFilled document behind page)
    (htag : Html.IsFilled document parts written) :
    Cut.IsFilled document (behind.tag parts) (page.tag written) :=
  ⟨.nil, .cons ⟨htag, hpage.before⟩ hpage.tags⟩

/-- The value of an attribute ends with a text of the document, and its quotation mark follows. -/
theorem isFilled_value {field : Document.Field} {text : String}
    (htext : document.text? field = some text) (front : List Char) :
    IsFilled document [.markup front, .hole field, .markup ['"']]
      (front ++ (escapeChars text.toList ++ ['"'])) :=
  .markup front ((isFilled_escapeChars htext).append (isFilled_markup ['"']))

theorem Attribute.Gives.isFilled (hattr : Attribute.Gives document attr attributes) :
    IsFilled document ((attr.map Attribute.parts).getD [])
      (attributes.flatMap printAttribute) := by
  cases hattr with
  | none => exact .nil
  | kindMark kind =>
      rw [List.flatMap_singleton]
      exact isFilled_markup _
  | deprecated =>
      rw [List.flatMap_singleton]
      exact isFilled_markup _
  | id htext =>
      rw [List.flatMap_singleton]
      exact isFilled_value htext " id=\"".toList
  | @fragment field text htext =>
      have hvalue : escapeChars ("#" ++ text).toList = '#' :: escapeChars text.toList := by
        rw [String.toList_append]
        rfl
      rw [List.flatMap_singleton, printAttribute, hvalue]
      exact isFilled_value htext " href=\"#".toList
  | address htext =>
      rw [List.flatMap_singleton]
      exact isFilled_value htext " href=\"".toList

/-- A filled layout is cut where the layout says, and its texts stand in its holes. -/
theorem Layout.Gives.isFilled (hlayout : Layout.Gives document layout pieces) {more : List Piece}
    (hmore : Cut.IsFilled document behind (cutPieces more)) :
    Cut.IsFilled document (layout.cutOnto behind) (cutPieces (pieces ++ more)) := by
  -- A node's contents are cut in front of what is behind the node, its closing tag included.
  induction hlayout generalizing behind more with
  | nil => exact hmore
  | words text _ ih => exact (ih hmore).run (isFilled_markup _)
  | hole htext _ ih => exact (ih hmore).run (isFilled_escapeChars htext)
  | doctype _ ih => exact (ih hmore).tag (isFilled_markup _)
  | charset _ ih => exact (ih hmore).tag (isFilled_markup _)
  | @node element attr attributes _ _ inside pieces hattr _ _ ihcontents ihrest =>
      have hclosing := (ihrest hmore).tag (isFilled_markup element.closing)
      have hopening : IsFilled document
          (.markup element.name.toList :: (attr.map Attribute.parts).getD [])
          (element.tag (attributes.flatMap printAttribute)) :=
        .markup element.name.toList hattr.isFilled
      have helement : Html.element element.name attributes inside ++ pieces ++ more =
          .opening element.name attributes ::
            (inside ++ .closing element.name :: (pieces ++ more)) := by
        simp [Html.element]
      rw [helement]
      exact (ihcontents hclosing).tag hopening

end Filled

/-- No text of a document alters the structure of its page. The tags of the page are nested; they
are those of the layout of the document's shape, but for the values of `id` and `href`; and the
texts of the document stand in the holes of the layout, each of them recovered by decoding. -/
theorem page_structure (document : Document) :
    IsNested ((cut (page document).toList).tags.map Prod.fst) ∧
      ((cut (page document).toList).tags.map Prod.fst).map blanked =
        (Layout.page document.shape).tags ∧
      Cut.IsFilled document ((Layout.page document.shape).cutOnto {})
        (cut (page document).toList) := by
  have hgives := Layout.gives_page document
  have hcut : cut (page document).toList = cutPieces (pagePieces document) := by
    rw [page, String.toList_ofList, cut_printPieces _ hgives.not_mem_tag]
  rw [hcut, tags_cutPieces]
  refine ⟨?_, hgives.blanked, ?_⟩
  · have hclosed := hgives.stillOpen [] []
    rwa [List.append_nil] at hclosed
  · have hnothing : Cut.IsFilled document {} (cutPieces []) := ⟨.nil, .nil⟩
    have hfilled := hgives.isFilled hnothing
    rwa [List.append_nil] at hfilled

end StyleDoc.Html
