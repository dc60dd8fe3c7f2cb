import StyleDoc.Proofs.Html.Layout

/-!
The page of a document is the layout of its shape with every hole filled. The two are compared part
by part: each part of the layout, filled with the texts of the document, gives the pieces of the
same part of the page.
-/

namespace StyleDoc

theorem Document.text?_item {document : Document} {n : Nat} {item : Item}
    (hitem : document.items[n]? = some item) (field : Item.Field) :
    document.text? (.item n field) = item.text? field := by
  simp [Document.text?, hitem]

namespace Html.Layout

section Combinators

variable {document : Document} {first second contents : Layout} {pieces more : List Piece}

theorem gives_append (hfirst : Gives document first pieces) (hsecond : Gives document second more) :
    Gives document (first ++ second) (pieces ++ more) := by
  change Gives document (first.append second) (pieces ++ more)
  induction hfirst with
  | nil => exact hsecond
  | words text _ ih => exact .words text ih
  | hole htext _ ih => exact .hole htext ih
  | doctype _ ih => exact .doctype ih
  | charset _ ih => exact .charset ih
  | node element hattr hcontents _ _ ih =>
      rw [List.append_assoc]
      exact .node element hattr hcontents ih

theorem gives_text (words : String) : Gives document (text words) [.text words] :=
  .words words .nil

theorem gives_field {place : Document.Field} {words : String}
    (hwords : document.text? place = some words) : Gives document (field place) [.text words] :=
  .hole hwords .nil

theorem gives_text_append (words : String) (hrest : Gives document second more) :
    Gives document (text words ++ second) (.text words :: more) :=
  .words words hrest

theorem gives_field_append {place : Document.Field} {words : String}
    (hwords : document.text? place = some words) (hrest : Gives document second more) :
    Gives document (field place ++ second) (.text words :: more) :=
  .hole hwords hrest

theorem gives_element {name : Element} {attr : Option Attribute}
    {attributes : List (String × String)} (hattr : Attribute.Gives document attr attributes)
    (hcontents : Gives document contents pieces) :
    Gives document (element name attr contents) (Html.element name.name attributes pieces) := by
  have hnode := Gives.node name hattr hcontents .nil
  rwa [List.append_nil] at hnode

theorem gives_lineEnd : Gives document lineEnd Html.lineEnd :=
  gives_text "\n"

theorem gives_indented (hcontents : Gives document contents pieces) :
    Gives document (indented contents) (Html.indented pieces) :=
  gives_append (gives_text_append "  " hcontents) gives_lineEnd

theorem gives_block {name : Element} (hcontents : Gives document contents pieces) :
    Gives document (block name contents) (Html.block name.name pieces) :=
  gives_append (gives_element .none (gives_append gives_lineEnd hcontents)) gives_lineEnd

theorem gives_line {name : Element} {attr : Option Attribute}
    {attributes : List (String × String)} (hattr : Attribute.Gives document attr attributes)
    (hcontents : Gives document contents pieces) :
    Gives document (line name attr contents) (Html.line name.name attributes pieces) :=
  gives_append (gives_element hattr hcontents) gives_lineEnd

theorem gives_code {place : Document.Field} {words : String}
    (hwords : document.text? place = some words) : Gives document (code place) (Html.code words) :=
  gives_element .none (gives_field hwords)

/-- Numbered parts are filled one by one. -/
theorem gives_numbered {α σ : Type} {part : Nat → σ → Layout} {shapeOf : α → σ}
    {printed : α → List Piece} (entries : List α) (start : Nat)
    (hpart : ∀ k entry, entries[k]? = some entry →
      Gives document (part (start + k) (shapeOf entry)) (printed entry)) :
    Gives document (numbered part start (entries.map shapeOf)) (entries.flatMap printed) := by
  induction entries generalizing start with
  | nil => exact .nil
  | cons entry entries ih =>
      have hrest := ih (start + 1) fun k other hother => by
        have hlater := hpart (k + 1) other (by simpa using hother)
        rwa [Nat.add_assoc, Nat.add_comm 1]
      exact gives_append (hpart 0 entry rfl) hrest

/-- Parts that only differ in a word are filled one by one. -/
theorem gives_numbered_words {part : String → Layout} {printed : String → List Piece}
    (words : List String) (hpart : ∀ word, Gives document (part word) (printed word)) :
    Gives document (numbered (fun _ => part) 0 words) (words.flatMap printed) := by
  have hwords :
      Gives document (numbered (fun _ => part) 0 (words.map id)) (words.flatMap printed) :=
    gives_numbered words 0 fun _ word _ => hpart word
  rwa [List.map_id] at hwords

/-- A list of which only the length is known is filled entry by entry. -/
theorem gives_titledList {title : String} {entries : List (List Piece)} {entry : Nat → Layout}
    (hentry : ∀ k found, entries[k]? = some found → Gives document (entry k) found) :
    Gives document (titledList title entries.length entry) (Html.titledList title entries) := by
  unfold titledList Html.titledList
  cases entries with
  | nil => exact .nil
  | cons first rest =>
      rw [if_neg (by simp), if_neg (by simp), ← List.map_const']
      refine gives_append (gives_line .none (gives_text title)) (gives_block ?_)
      refine gives_numbered _ 0 fun k found hfound => ?_
      rw [Nat.zero_add]
      exact gives_indented (gives_element .none (hentry k found hfound))

theorem gives_kindMark (kind : Kind) :
    Gives document (kindMark kind) (Html.kindMark kind) :=
  gives_element (.kindMark kind) (gives_text kind.keyword)

theorem gives_parameterHeader : Gives document parameterHeader Html.parameterHeader :=
  gives_indented (gives_element .none (gives_numbered_words _ fun title =>
    gives_element .none (gives_text title)))

end Combinators

section Items

variable {document : Document} {n : Nat} {item : Item} (hitem : document.items[n]? = some item)
include hitem

theorem gives_indexEntry : Gives document (indexEntry n item.shape) (Html.indexEntry item) := by
  have hanchor : document.text? (.item n .anchor) = some item.anchor :=
    Document.text?_item hitem .anchor
  have hname : document.text? (.item n .name) = some item.name :=
    Document.text?_item hitem .name
  exact gives_indented (gives_element .none (gives_append
    (gives_element (.fragment hanchor) (gives_field hname))
    (gives_text_append " " (gives_kindMark item.kind))))

theorem gives_heading : Gives document (heading n item.kind) (Html.heading item) := by
  have hanchor : document.text? (.item n .anchor) = some item.anchor :=
    Document.text?_item hitem .anchor
  have hname : document.text? (.item n .name) = some item.name :=
    Document.text?_item hitem .name
  exact gives_line (.id hanchor) (gives_field_append hname
    (gives_text_append " " (gives_kindMark item.kind)))

theorem gives_deprecation :
    Gives document (deprecation n item.deprecated.form) (Html.deprecation item.deprecated) := by
  cases hdeprecated : item.deprecated with
  | current => exact .nil
  | deprecated => exact gives_line .deprecated (gives_element .none (gives_text "Deprecated"))
  | because reason =>
      have hreason : document.text? (.item n .reason) = some reason := by
        rw [Document.text?_item hitem, Item.text?, hdeprecated]
      exact gives_line .deprecated (gives_append
        (gives_element .none (gives_text "Deprecated:"))
        (gives_text_append " " (gives_field hreason)))

theorem gives_access :
    Gives document (access n (item.access = "public")) (Html.access item.access) := by
  unfold access Html.access
  by_cases hpublic : item.access = "public"
  · rw [if_pos (decide_eq_true hpublic), if_pos hpublic]
    exact .nil
  · rw [if_neg (by simpa using hpublic), if_neg hpublic]
    exact gives_line .none (gives_element .none
      (gives_field (Document.text?_item hitem .access)))

theorem gives_description :
    Gives document (description n (item.description = "")) (Html.description item.description) := by
  unfold description Html.description
  by_cases hempty : item.description = ""
  · rw [if_pos (decide_eq_true hempty), if_pos hempty]
    exact .nil
  · rw [if_neg (by simpa using hempty), if_neg hempty]
    exact gives_line .none (gives_field (Document.text?_item hitem .description))

theorem gives_parameterRow {k : Nat} {parameter : Parameter}
    (hparameter : item.parameters[k]? = some parameter) :
    Gives document (parameterRow n k parameter.default.isSome) (Html.parameterRow parameter) := by
  have hplace (place : Item.Field) (read : Parameter → String)
      (hread : item.text? place = item.parameters[k]?.map read) :
      document.text? (.item n place) = some (read parameter) := by
    rw [Document.text?_item hitem, hread, hparameter, Option.map_some]
  refine gives_indented (gives_element .none (gives_append (gives_append (gives_append
    (gives_element .none (gives_code (hplace _ Parameter.name rfl)))
    (gives_element .none (gives_code (hplace _ Parameter.type rfl))))
    (gives_element .none ?_))
    (gives_element .none (gives_field (hplace _ Parameter.description rfl)))))
  cases hdefault : parameter.default with
  | none => exact .nil
  | some text =>
      have htext : document.text? (.item n (.parameterDefault k)) = some text := by
        rw [Document.text?_item hitem, Item.text?, hparameter, Option.bind_some, hdefault]
      exact gives_code htext

theorem gives_parameterTable :
    Gives document (parameterTable n (item.parameters.map (·.default.isSome)))
      (Html.parameterTable item.parameters) := by
  unfold parameterTable Html.parameterTable
  rw [List.isEmpty_map]
  split
  · exact .nil
  · refine gives_append (gives_line .none (gives_text "Parameters")) (gives_block ?_)
    refine gives_append gives_parameterHeader (gives_numbered _ 0 fun k parameter hfound => ?_)
    rw [Nat.zero_add]
    exact gives_parameterRow hitem hfound

omit hitem in
theorem gives_alternatives (types : List String) (k : Nat)
    (htypes : ∀ j type, types[j]? = some type →
      document.text? (.item n (.returnType (k + j))) = some type) :
    Gives document (alternatives n k types.length) (Html.alternatives types) := by
  induction types generalizing k with
  | nil => exact .nil
  | cons type types ih =>
      have hfirst := gives_code (htypes 0 type rfl)
      cases types with
      | nil => exact hfirst
      | cons next rest =>
          have hrest := ih (k + 1) fun j other hother => by
            have hlater := htypes (j + 1) other (by simpa using hother)
            rwa [Nat.add_assoc, Nat.add_comm 1]
          exact gives_append hfirst (gives_text_append " | " hrest)

theorem gives_returns :
    Gives document
      (returns n (item.returns.types.map List.length) (item.returns.description.any (· ≠ "")))
      (Html.returns item.returns) := by
  unfold returns Html.returns
  cases htypes : item.returns.types with
  | none => exact .nil
  | some types =>
      have halternatives :
          Gives document (alternatives n 0 types.length) (Html.alternatives types) := by
        refine gives_alternatives types 0 fun j type htype => ?_
        rw [Document.text?_item hitem, Item.text?, htypes, Nat.zero_add, Option.bind_some, htype]
      refine gives_append (gives_line .none (gives_text "Returns"))
        (gives_line .none (gives_append halternatives ?_))
      cases hdescription : item.returns.description with
      | none => exact .nil
      | some text =>
          have hplace : document.text? (.item n .returnDescription) = some text := by
            rw [Document.text?_item hitem, Item.text?, hdescription]
          by_cases hempty : text = ""
          · simpa [hempty] using Gives.nil
          · simpa [hempty] using gives_text_append ": " (gives_field hplace)

theorem gives_texts (title : String) {texts : List String} {place : Nat → Item.Field}
    (hplace : ∀ k, item.text? (place k) = texts[k]?) :
    Gives document (titledList title texts.length fun k => field (.item n (place k)))
      (Html.titledList title (textEntries texts)) := by
  have hlength : texts.length = (textEntries texts).length := by simp [textEntries]
  rw [hlength]
  refine gives_titledList fun k found hfound => ?_
  rw [textEntries, List.getElem?_map, Option.map_eq_some_iff] at hfound
  obtain ⟨text, htext, rfl⟩ := hfound
  exact gives_field (by rw [Document.text?_item hitem, hplace, htext])

theorem gives_links :
    Gives document (titledList "See also" item.links.length (linkEntry n))
      (Html.titledList "See also" (item.links.map Html.linkEntry)) := by
  have hlength : item.links.length = (item.links.map Html.linkEntry).length := by simp
  rw [hlength]
  refine gives_titledList fun k found hfound => ?_
  rw [List.getElem?_map, Option.map_eq_some_iff] at hfound
  obtain ⟨link, hlink, rfl⟩ := hfound
  have hurl : document.text? (.item n (.linkUrl k)) = some link.url := by
    rw [Document.text?_item hitem, Item.text?, hlink, Option.map_some]
  have htext : document.text? (.item n (.linkText k)) = some link.text := by
    rw [Document.text?_item hitem, Item.text?, hlink, Option.map_some]
  exact gives_element (.address hurl) (gives_field htext)

theorem gives_author :
    Gives document (author n item.author.isSome) (Html.author item.author) := by
  cases hauthor : item.author with
  | none => exact .nil
  | some name =>
      have hname : document.text? (.item n .author) = some name := by
        rw [Document.text?_item hitem, Item.text?, hauthor]
      exact gives_line .none (gives_element .none
        (gives_text_append "Author: " (gives_field hname)))

theorem gives_item : Gives document (Layout.item n item.shape) (itemPieces item) := by
  refine gives_append ?_ (gives_author hitem)
  refine gives_append ?_ (gives_texts hitem "Todo" fun _ => rfl)
  refine gives_append ?_ (gives_links hitem)
  refine gives_append ?_ (gives_texts hitem "Aliases" fun _ => rfl)
  refine gives_append ?_ (gives_texts hitem "Throws" fun _ => rfl)
  refine gives_append ?_ (gives_returns hitem)
  refine gives_append ?_ (gives_parameterTable hitem)
  refine gives_append ?_ (gives_description hitem)
  refine gives_append ?_ (gives_access hitem)
  exact gives_append (gives_heading hitem) (gives_deprecation hitem)

end Items

section Pages

variable (document : Document)

theorem gives_index :
    Gives document (index document.shape.items) (Html.index document.items) := by
  unfold index Html.index Document.shape
  rw [List.isEmpty_map]
  split
  · exact .nil
  · refine gives_append (gives_line .none (gives_text "Index")) (gives_block ?_)
    refine gives_numbered _ 0 fun n item hitem => ?_
    rw [Nat.zero_add]
    exact gives_indexEntry hitem

theorem gives_titleLine (name : Element) :
    Gives document (titleLine name document.shape.isUntitled)
      (Html.titleLine name.name document.title) := by
  unfold titleLine Html.titleLine Document.shape
  by_cases huntitled : document.title = ""
  · rw [if_pos (decide_eq_true huntitled), if_pos huntitled]
    exact .nil
  · rw [if_neg (by simpa using huntitled), if_neg huntitled]
    exact gives_line .none (gives_field rfl)

theorem gives_head :
    Gives document (head document.shape.isUntitled) (Html.head document.title) :=
  gives_block (gives_append (gives_append (.charset gives_lineEnd)
    (gives_titleLine document .title)) (gives_block (gives_numbered_words styleLines fun words =>
      gives_text_append words gives_lineEnd)))

theorem gives_body : Gives document (body document.shape) (Html.body document) := by
  refine gives_block (gives_append (gives_append (gives_titleLine document .h1)
    (gives_index document)) ?_)
  refine gives_numbered _ 0 fun n item hitem => ?_
  rw [Nat.zero_add]
  exact gives_item hitem

/-- The layout of a document's shape gives the page of the document. -/
theorem gives_page : Gives document (page document.shape) (pagePieces document) :=
  gives_append (.doctype gives_lineEnd)
    (gives_block (gives_append (gives_head document) (gives_body document)))

end Pages

end Html.Layout

end StyleDoc
