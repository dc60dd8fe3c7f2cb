import StyleDoc.Proofs.Html.Names
import StyleDoc.Proofs.Html.Structure
import StyleDoc.Proofs.Text.Scan

/-!
What the elements of a page refer to. In the characters of a page, the value of an attribute stands
between quotation marks behind the name of the element and that of the attribute; read there, it is
the value that the element was given. A tag without that attribute has nothing to be read, because
names of elements have no spaces and names of attributes no equals signs.
-/

namespace StyleDoc.Html

open Text

/-- The value, as it is written, of the attribute that a tag of the given name begins with. -/
def value? (name key : String) (tag : List Char) : Option (List Char) :=
  (literal? (name.toList ++ ' ' :: (key.toList ++ ['=', '"'])) tag).map fun rest =>
    rest.takeWhile (· ≠ '"')

def Piece.value? (name key : String) : Piece → Option String
  | .opening other [(otherKey, value)] =>
      if other = name ∧ otherKey = key then some value else none
  | _ => none

/-- The values that elements of the given name have for an attribute, in the order of the pieces. -/
def values (name key : String) (pieces : List Piece) : List String :=
  pieces.filterMap (Piece.value? name key)

/-- The pieces that the pages of a document are put together from. -/
inductive IsPagePiece (document : Document) : Piece → Prop where
  | doctype : IsPagePiece document .doctype
  | charset : IsPagePiece document (.opening "meta" [("charset", "utf-8")])
  | text (content : String) : IsPagePiece document (.text content)
  | opening (element : Element) {attr : Option Attribute} {attributes : List (String × String)}
      (hattr : Attribute.Gives document attr attributes) :
      IsPagePiece document (.opening element.name attributes)
  | closing (element : Element) : IsPagePiece document (.closing element.name)

theorem Layout.Gives.isPagePiece {document : Document} {layout : Layout} {pieces : List Piece}
    (hlayout : Layout.Gives document layout pieces) :
    ∀ piece ∈ pieces, IsPagePiece document piece := by
  induction hlayout with
  | nil => exact fun _ hpiece => absurd hpiece List.not_mem_nil
  | words text _ ih => exact List.forall_mem_cons.mpr ⟨.text text, ih⟩
  | hole _ _ ih => exact List.forall_mem_cons.mpr ⟨.text _, ih⟩
  | doctype _ ih => exact List.forall_mem_cons.mpr ⟨.doctype, ih⟩
  | charset _ ih => exact List.forall_mem_cons.mpr ⟨.charset, ih⟩
  | node element hattr _ _ ihcontents ihrest =>
      intro piece hpiece
      rcases List.mem_append.mp hpiece with helement | hrest
      · rcases List.mem_cons.mp helement with rfl | hinside
        · exact .opening element hattr
        · rcases List.mem_append.mp hinside with hcontents | hclosing
          · exact ihcontents piece hcontents
          · rw [List.mem_singleton.mp hclosing]
            exact .closing element
      · exact ihrest piece hrest

section Tags

theorem value?_eq_none_of_not_mem {name key : String} {tag : List Char} (htag : ' ' ∉ tag) :
    value? name key tag = none := by
  rw [value?, Option.map_eq_none_iff, Option.eq_none_iff_forall_ne_some]
  intro rest hrest
  rw [literal?_eq_some_iff] at hrest
  exact htag (by simp [hrest])

/-- A tag with one attribute has a value for that attribute only. -/
theorem value?_printAttribute (element other : Element) {key otherKey : String}
    (hkey : '=' ∉ key.toList) (hother : '=' ∉ otherKey.toList) (value : String) :
    value? element.name key (other.tag (printAttribute (otherKey, value))) =
      if other.name = element.name ∧ otherKey = key then some (escapeChars value.toList)
      else none := by
  have hspace (element : Element) : ' ' ∉ element.name.toList := element.not_mem_name (by decide)
  have hquote : '"' ∉ escapeChars value.toList :=
    fun hmem => not_isMarkup_of_mem_escapeChars hmem (by decide)
  have htag : other.tag (printAttribute (otherKey, value)) =
      other.name.toList ++ ' ' :: (otherKey.toList ++ '=' :: '"' ::
        (escapeChars value.toList ++ ['"'])) := by
    simp [Element.tag, printAttribute]
  have hread (rest : List Char) :
      literal? (element.name.toList ++ ' ' :: (key.toList ++ ['=', '"']))
          (other.tag (printAttribute (otherKey, value))) = some rest ↔
        (other.name = element.name ∧ otherKey = key) ∧ escapeChars value.toList ++ ['"'] = rest := by
    rw [literal?_eq_some_iff, htag, List.append_assoc, List.cons_append, List.append_assoc,
      append_cons_inj (hspace other) (hspace element)]
    simp only [List.cons_append, List.nil_append]
    rw [append_cons_inj hother hkey]
    simp [String.toList_inj, and_assoc]
  split
  · rename_i hsame
    rw [value?, (hread _).mpr ⟨hsame, rfl⟩, Option.map_some, takeWhile_ne_append hquote]
  · rename_i hdiffers
    rw [value?, Option.map_eq_none_iff, Option.eq_none_iff_forall_ne_some]
    exact fun rest hrest => hdiffers ((hread rest).mp hrest).1

theorem value?_eq_none_of_name {name : String} (key : String) {front : List Char}
    (hname : ' ' ∉ name.toList) (hfront : ' ' ∉ front) (hne : front ≠ name.toList)
    (back : List Char) : value? name key (front ++ ' ' :: back) = none := by
  rw [value?, Option.map_eq_none_iff, Option.eq_none_iff_forall_ne_some]
  intro rest hrest
  rw [literal?_eq_some_iff, List.append_assoc, List.cons_append,
    append_cons_inj hfront hname] at hrest
  exact hne hrest.1

theorem Attribute.Gives.eq_nil_or_singleton {document : Document} {attr : Option Attribute}
    {attributes : List (String × String)} (hattr : Attribute.Gives document attr attributes) :
    attributes = [] ∨
      ∃ key ∈ ["class", "id", "href"], ∃ value, attributes = [(key, value)] := by
  cases hattr with
  | none => exact Or.inl rfl
  | kindMark kind => exact Or.inr ⟨"class", by simp, _, rfl⟩
  | deprecated => exact Or.inr ⟨"class", by simp, _, rfl⟩
  | id _ => exact Or.inr ⟨"id", by simp, _, rfl⟩
  | fragment _ => exact Or.inr ⟨"href", by simp, _, rfl⟩
  | address _ => exact Or.inr ⟨"href", by simp, _, rfl⟩

/-- What is read in a tag is what the piece was given, as it is written. -/
theorem IsPagePiece.value?_tag {document : Document} {piece : Piece}
    (hpiece : IsPagePiece document piece) (element : Element) {key : String}
    (hkey : '=' ∉ key.toList) :
    piece.tag?.bind (Html.value? element.name key) =
      (piece.value? element.name key).map fun value => escapeChars value.toList := by
  have hspace (element : Element) : ' ' ∉ element.name.toList := element.not_mem_name (by decide)
  cases hpiece with
  | doctype =>
      have hne : "!DOCTYPE".toList ≠ element.name.toList := by cases element <;> decide
      exact value?_eq_none_of_name key (hspace element) (by decide) hne "html".toList
  | charset =>
      have hne : "meta" ≠ element.name := by cases element <;> decide
      have hnone : Piece.value? element.name key (.opening "meta" [("charset", "utf-8")]) = none :=
        if_neg fun hsame => hne hsame.1
      rw [hnone]
      exact value?_eq_none_of_name key (hspace element) (by decide) (mt String.toList_inj.mp hne)
        "charset=\"utf-8\"".toList
  | text content => rfl
  | opening other hattr =>
      rcases hattr.eq_nil_or_singleton with rfl | ⟨otherKey, hotherKey, value, rfl⟩
      · have htag : ' ' ∉ other.tag [] := by simpa [Element.tag] using hspace other
        exact value?_eq_none_of_not_mem htag
      · have hother : ∀ key ∈ ["class", "id", "href"], '=' ∉ key.toList := by decide
        have hread := value?_printAttribute element other hkey (hother otherKey hotherKey) value
        simp only [Piece.tag?, List.flatMap_singleton, Option.bind_some, Piece.value?]
        rw [← Element.tag, hread]
        split <;> rfl
  | closing other =>
      have htag : ' ' ∉ other.closing := by simpa [Element.closing] using hspace other
      exact value?_eq_none_of_not_mem htag

/-- The values in the tags of a page are those that its elements were given. -/
theorem filterMap_value?_tags {document : Document} {pieces : List Piece}
    (hpieces : ∀ piece ∈ pieces, IsPagePiece document piece) (element : Element) {key : String}
    (hkey : '=' ∉ key.toList) :
    (pieces.filterMap Piece.tag?).filterMap (value? element.name key) =
      (values element.name key pieces).map fun value => escapeChars value.toList := by
  rw [List.filterMap_filterMap, values, List.map_filterMap]
  exact List.filterMap_congr fun piece hpiece => (hpieces piece hpiece).value?_tag element hkey

end Tags

section Values

variable {name key : String} {pieces more : List Piece}

@[simp]
theorem values_nil : values name key [] = [] :=
  rfl

@[simp]
theorem values_append :
    values name key (pieces ++ more) = values name key pieces ++ values name key more :=
  List.filterMap_append

@[simp]
theorem values_text (text : String) :
    values name key (.text text :: pieces) = values name key pieces :=
  rfl

@[simp]
theorem values_element (other : String) (attributes : List (String × String)) :
    values name key (element other attributes pieces) =
      (Piece.value? name key (.opening other attributes)).toList ++ values name key pieces := by
  have hclosing : Piece.value? name key (.closing other) = none := rfl
  simp only [values, element, List.filterMap_append, List.cons_append, List.filterMap_cons,
    List.filterMap_nil, hclosing, List.append_nil]
  split <;> simp [*]

@[simp]
theorem values_lineEnd : values name key lineEnd = [] :=
  rfl

@[simp]
theorem values_indented : values name key (indented pieces) = values name key pieces := by
  simp [indented]

@[simp]
theorem values_block (other : String) :
    values name key (block other pieces) = values name key pieces := by
  simp [block, Piece.value?]

@[simp]
theorem values_line (other : String) (attributes : List (String × String)) :
    values name key (line other attributes pieces) =
      (Piece.value? name key (.opening other attributes)).toList ++ values name key pieces := by
  simp [line]

theorem values_flatMap {α : Type} (printed : α → List Piece) (entries : List α) :
    values name key (entries.flatMap printed) =
      entries.flatMap fun entry => values name key (printed entry) :=
  List.filterMap_flatMap

/-- Where there is no element of a name, there are no values of its attributes. -/
theorem values_eq_nil (hname : name ∉ names pieces) : values name key pieces = [] := by
  rw [values, List.filterMap_eq_nil_iff]
  intro piece hpiece
  unfold Piece.value?
  split
  · refine if_neg fun hsame => hname ?_
    rw [← hsame.1]
    exact List.mem_filterMap.mpr ⟨_, hpiece, rfl⟩
  · rfl

theorem filterMap_value?_tags_eq_nil {document : Document}
    (hpieces : ∀ piece ∈ pieces, IsPagePiece document piece) (element : Element)
    (hkey : '=' ∉ key.toList) (hname : element.name ∉ names pieces) :
    (pieces.filterMap Piece.tag?).filterMap (value? element.name key) = [] := by
  rw [filterMap_value?_tags hpieces element hkey, values_eq_nil hname, List.map_nil]

end Values

end StyleDoc.Html
