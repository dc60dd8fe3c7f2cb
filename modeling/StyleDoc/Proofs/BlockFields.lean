import Mathlib.Data.List.Basic
import StyleDoc.Block
import StyleDoc.Proofs.Text.Lines

/-!
How the lines of a comment block add up to an item. Folding the tags is one pass with a state, but
every field of the result can be read off on its own: a list holds the values of its tags in order,
a single value is that of the last tag, and the description is the text of its lines set apart by
one line break. Tags of different fields therefore pass each other freely.
-/

namespace StyleDoc

namespace Tag

/-- The text of a line of description, without the line break that sets it off. -/
@[simp]
def asDescription? : Tag → Option (List Char)
  | .description text => some text.toList.tail
  | _ => none

@[simp]
def asReturns? : Tag → Option Return
  | .returns value => some value
  | _ => none

@[simp]
def asParameter? : Tag → Option Parameter
  | .parameter value => some value
  | _ => none

@[simp]
def asDeprecated? : Tag → Option Deprecation
  | .deprecated value => some value
  | _ => none

@[simp]
def asAuthor? : Tag → Option String
  | .author name => some name
  | _ => none

@[simp]
def asAccess? : Tag → Option String
  | .access level => some level
  | _ => none

@[simp]
def asThrows? : Tag → Option String
  | .throws text => some text
  | _ => none

@[simp]
def asTodo? : Tag → Option String
  | .todo text => some text
  | _ => none

@[simp]
def asAlias? : Tag → Option String
  | .alias name => some name
  | _ => none

@[simp]
def asLink? : Tag → Option Link
  | .link value => some value
  | _ => none

/-- A line of description as it is stored, with a line break in front of its text. -/
def IsSetOff : Tag → Prop
  | .description text => ∃ line, text = String.ofList ('\n' :: line)
  | _ => True

theorem field_ne_description_of_mem_forms {form : Line → Option Tag} (hform : form ∈ forms)
    {line : Line} {tag : Tag} (htag : form line = some tag) : tag.field ≠ "description" := by
  simp only [forms, List.mem_cons, List.not_mem_nil, or_false] at hform
  rcases hform with rfl | rfl | rfl | rfl | rfl | rfl | rfl | rfl | rfl <;>
    (obtain ⟨_, _, rfl⟩ := Option.map_eq_some_iff.mp htag; simp [field])

/-- A line that is description is stored whole behind its line break. -/
theorem eq_of_ofLine?_eq_description {line : Line} {text : String}
    (htag : ofLine? line = some (.description text)) :
    text = String.ofList ('\n' :: line) := by
  unfold ofLine? at htag
  split at htag
  · cases htag
  · split at htag
    · rename_i other hfound
      cases htag
      obtain ⟨form, hform, hother⟩ := List.exists_of_findSome?_eq_some hfound
      exact absurd rfl (field_ne_description_of_mem_forms hform hother)
    · cases htag
      rfl

theorem isSetOff_of_ofLine? {line : Line} {tag : Tag} (htag : ofLine? line = some tag) :
    tag.IsSetOff := by
  cases tag with
  | description text => exact ⟨line, eq_of_ofLine?_eq_description htag⟩
  | _ => trivial

end Tag

/-- The item that a list of tags adds up to, read field by field. -/
def Item.ofTags (tags : List Tag) : Item where
  description := String.ofList (['\n'].intercalate (tags.filterMap Tag.asDescription?))
  access := (tags.filterMap Tag.asAccess?).getLast?.getD "public"
  deprecated := (tags.filterMap Tag.asDeprecated?).getLast?.getD .current
  author := (tags.filterMap Tag.asAuthor?).getLast?
  returns := (tags.filterMap Tag.asReturns?).getLast?.getD {}
  parameters := tags.filterMap Tag.asParameter?
  throws := tags.filterMap Tag.asThrows?
  todos := tags.filterMap Tag.asTodo?
  aliases := tags.filterMap Tag.asAlias?
  links := tags.filterMap Tag.asLink?

namespace Block

/-- What a list of tags adds to an item that has been begun. Each field keeps its own account: the
tags of the other fields leave it as it is. -/
theorem foldl_add_eq (tags : List Tag) (begun : Item) (hsetOff : ∀ tag ∈ tags, tag.IsSetOff) :
    tags.foldl Item.add begun =
      { begun with
        description := begun.description ++
          String.ofList ((tags.filterMap Tag.asDescription?).flatMap ('\n' :: ·))
        access := (tags.filterMap Tag.asAccess?).getLast?.getD begun.access
        deprecated := (tags.filterMap Tag.asDeprecated?).getLast?.getD begun.deprecated
        author := (tags.filterMap Tag.asAuthor?).getLast?.or begun.author
        returns := (tags.filterMap Tag.asReturns?).getLast?.getD begun.returns
        parameters := begun.parameters ++ tags.filterMap Tag.asParameter?
        throws := begun.throws ++ tags.filterMap Tag.asThrows?
        todos := begun.todos ++ tags.filterMap Tag.asTodo?
        aliases := begun.aliases ++ tags.filterMap Tag.asAlias?
        links := begun.links ++ tags.filterMap Tag.asLink? } := by
  induction tags generalizing begun with
  | nil => simp
  | cons tag tags ih =>
      have htail : ∀ other ∈ tags, other.IsSetOff := fun other hmem =>
        hsetOff other (List.mem_cons_of_mem _ hmem)
      rw [List.foldl_cons, ih (begun.add tag) htail]
      cases tag with
      | description text =>
          obtain ⟨line, rfl⟩ := hsetOff _ List.mem_cons_self
          simp [Item.add, List.filterMap_cons, String.append_assoc]
      | _ => simp [Item.add, List.filterMap_cons, List.getLast?_cons]

theorem isSetOff_of_mem_tags {comments : List Line} {tag : Tag} (hmem : tag ∈ tags comments) :
    tag.IsSetOff := by
  obtain ⟨line, _, htag⟩ := List.mem_filterMap.mp hmem
  exact Tag.isSetOff_of_ofLine? htag

/-- Only the break in front of the first text is dropped; a text that is itself empty or begins
with a break loses nothing. -/
theorem dropFirstBreak_setOff (texts : List (List Char)) :
    dropFirstBreak (String.ofList (texts.flatMap ('\n' :: ·))) =
      String.ofList (['\n'].intercalate texts) := by
  cases texts with
  | nil => rfl
  | cons text rest =>
      rw [Text.intercalate_cons_eq_append_flatMap, List.flatMap_cons, List.cons_append]
      simp only [dropFirstBreak, String.toList_ofList]

theorem item_eq_ofTags (comments : List Line) :
    item comments = Item.ofTags (tags comments) := by
  unfold item
  rw [foldl_add_eq _ _ fun tag => isSetOff_of_mem_tags]
  simp [Item.ofTags, dropFirstBreak_setOff]

/-- The tags of a block that contribute to the named field. -/
def tagsOf (field : String) (comments : List Line) : List Tag :=
  (tags comments).filter (·.field = field)

/-- The lines of a block that are description, as they were written. -/
def descriptionLines (comments : List Line) : List Line :=
  (comments.map Comment.text).filter fun line =>
    (Tag.ofLine? line).map Tag.field = some "description"

end Block

/-- A reading that only looks at the tags of one field. -/
theorem filterMap_eq_filterMap_field {α : Type} (read : Tag → Option α) (field : String)
    (tags : List Tag) (hread : ∀ tag : Tag, tag.field ≠ field → read tag = none) :
    tags.filterMap read = (tags.filter (·.field = field)).filterMap read := by
  rw [List.filterMap_filter]
  apply List.filterMap_congr
  intro tag _
  by_cases hfield : tag.field = field
  · simp [hfield]
  · simp [hfield, hread tag hfield]

/-- Lists of tags that agree on every field separately add up to the same item, however the tags
of different fields are mixed. -/
theorem Item.ofTags_congr {tags others : List Tag}
    (hfields : ∀ field : String,
      tags.filter (·.field = field) = others.filter (·.field = field)) :
    Item.ofTags tags = Item.ofTags others := by
  have hread {α : Type} (read : Tag → Option α) (field : String)
      (honly : ∀ tag : Tag, tag.field ≠ field → read tag = none) :
      tags.filterMap read = others.filterMap read := by
    rw [filterMap_eq_filterMap_field read field tags honly, hfields,
      ← filterMap_eq_filterMap_field read field others honly]
  unfold Item.ofTags
  rw [hread Tag.asDescription? "description" (by intro tag; cases tag <;> simp [Tag.field]),
    hread Tag.asAccess? "access" (by intro tag; cases tag <;> simp [Tag.field]),
    hread Tag.asDeprecated? "deprecated" (by intro tag; cases tag <;> simp [Tag.field]),
    hread Tag.asAuthor? "author" (by intro tag; cases tag <;> simp [Tag.field]),
    hread Tag.asReturns? "return" (by intro tag; cases tag <;> simp [Tag.field]),
    hread Tag.asParameter? "parameters" (by intro tag; cases tag <;> simp [Tag.field]),
    hread Tag.asThrows? "throws" (by intro tag; cases tag <;> simp [Tag.field]),
    hread Tag.asTodo? "todos" (by intro tag; cases tag <;> simp [Tag.field]),
    hread Tag.asAlias? "alias" (by intro tag; cases tag <;> simp [Tag.field]),
    hread Tag.asLink? "link" (by intro tag; cases tag <;> simp [Tag.field])]

namespace Block

/-- The description lines are the texts of the description tags. -/
theorem filterMap_asDescription?_tags (comments : List Line) :
    (tags comments).filterMap Tag.asDescription? = descriptionLines comments := by
  unfold tags descriptionLines
  induction comments with
  | nil => rfl
  | cons line rest ih =>
      cases htag : Tag.ofLine? (Comment.text line) with
      | none => simp [htag, ih]
      | some tag =>
          cases tag with
          | description text =>
              have htext := Tag.eq_of_ofLine?_eq_description htag
              simpa [htag, htext, Tag.field, List.filterMap_cons] using ih
          | _ => simpa [htag, Tag.field, List.filterMap_cons] using ih

/-- Every field of a block's item, as a reading of the lines that contribute to it, and so of
nothing else: blocks whose lines agree field by field describe the same item. -/
theorem item_reads_each_field :
    (∀ comments : List Line,
      item comments =
        { kind := .function
          name := ""
          description := String.ofList (['\n'].intercalate (descriptionLines comments))
          access := ((tags comments).filterMap Tag.asAccess?).getLast?.getD "public"
          deprecated := ((tags comments).filterMap Tag.asDeprecated?).getLast?.getD .current
          author := ((tags comments).filterMap Tag.asAuthor?).getLast?
          returns := ((tags comments).filterMap Tag.asReturns?).getLast?.getD {}
          parameters := (tags comments).filterMap Tag.asParameter?
          throws := (tags comments).filterMap Tag.asThrows?
          todos := (tags comments).filterMap Tag.asTodo?
          aliases := (tags comments).filterMap Tag.asAlias?
          links := (tags comments).filterMap Tag.asLink? }) ∧
      ∀ comments others : List Line,
        (∀ field, tagsOf field comments = tagsOf field others) → item comments = item others := by
  constructor
  · intro comments
    rw [item_eq_ofTags, ← filterMap_asDescription?_tags]
    rfl
  · intro comments others hfields
    rw [item_eq_ofTags, item_eq_ofTags]
    exact Item.ofTags_congr hfields

end Block

end StyleDoc
