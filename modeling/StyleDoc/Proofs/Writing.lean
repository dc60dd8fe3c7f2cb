import Mathlib.Data.List.Forall2
import StyleDoc.Stylesheet

/-!
Writing an item down as documentation: a comment line for each line of its description and for each
of its tags, and below them the header that it documents. The tags of different fields may stand in
any order, and a tag with two spellings may have either. What may be written this way is an item
whose texts cannot be mistaken for the marks around them.
-/

namespace StyleDoc

namespace Text

/-- A text that can stand at the end of a comment line: it has no line feed, no space at either
end, and does not close a block comment. -/
structure IsPlain (text : List Char) : Prop where
  unbroken : '\n' ∉ text
  head : ∀ c ∈ text.head?, isSpace c = false
  last : ∀ c ∈ text.getLast?, isSpace c = false
  unclosed : ¬ ['*', '/'] <:+ text

instance (text : List Char) : Decidable (IsPlain text) :=
  decidable_of_iff ('\n' ∉ text ∧ text.head?.all (!isSpace ·) ∧ text.getLast?.all (!isSpace ·) ∧
      ¬ ['*', '/'] <:+ text)
    ⟨fun h => ⟨h.1, by simpa [Option.all_eq_true] using h.2.1,
        by simpa [Option.all_eq_true] using h.2.2.1, h.2.2.2⟩,
      fun h => ⟨h.unbroken, by simpa [Option.all_eq_true] using h.head,
        by simpa [Option.all_eq_true] using h.last, h.unclosed⟩⟩

/-- A plain text of one word. -/
structure IsWord (text : List Char) : Prop extends IsPlain text where
  nonempty : text ≠ []
  unparted : ∀ c ∈ text, isBlank c = false

instance (text : List Char) : Decidable (IsWord text) :=
  decidable_of_iff (IsPlain text ∧ text ≠ [] ∧ text.all (!isBlank ·))
    ⟨fun h => ⟨h.1, h.2.1, by simpa using h.2.2⟩,
      fun h => ⟨h.toIsPlain, h.nonempty, by simpa using h.unparted⟩⟩

/-- A name as headers have it. -/
def IsName (text : List Char) : Prop :=
  text ≠ [] ∧ ∀ c ∈ text, isNameChar c = true

instance (text : List Char) : Decidable (IsName text) :=
  decidable_of_iff (text ≠ [] ∧ text.all isNameChar) (by simp [IsName])

def IsParenthesis (c : Char) : Prop :=
  c = '(' ∨ c = ')'

instance (c : Char) : Decidable (IsParenthesis c) :=
  inferInstanceAs (Decidable (c = '(' ∨ c = ')'))

/-- Characters other than parentheses, and pairs of parentheses that are not nested. -/
inductive IsFlat : List Char → Prop where
  | nil : IsFlat []
  | char (c : Char) (rest : List Char) (hc : ¬ IsParenthesis c) (hrest : IsFlat rest) :
      IsFlat (c :: rest)
  | group (inner rest : List Char) (hinner : ∀ c ∈ inner, ¬ IsParenthesis c)
      (hrest : IsFlat rest) : IsFlat ('(' :: (inner ++ ')' :: rest))

end Text

open Text

namespace Tag

/-- The description at the end of a tag, set off by a hyphen. The hyphen may be missing if there
is no description, or one that begins neither with a hyphen nor like a default. -/
def clauses (description : List Char) : List (List Char) :=
  match description with
  | [] => [" -".toList, []]
  | '-' :: _ | '(' :: _ => [" - ".toList ++ description]
  | _ => [" - ".toList ++ description, ' ' :: description]

def writtenTypes (value : Return) : List Char :=
  ['|'].intercalate ((value.types.getD []).map String.toList)

def writtenDefault (value : Parameter) : List Char :=
  match value.default with
  | some default => " (".toList ++ default.toList ++ [')']
  | none => []

def writtenCaption (value : Link) : List Char :=
  match value.caption with
  | some caption => ' ' :: caption.toList
  | none => []

/-- The texts that a comment line with the tag can have. -/
def spellings : Tag → List (List Char)
  | .description text => [text.toList.tail]
  | .returns value =>
      ["@return ".toList, "@returns ".toList].flatMap fun opening =>
        (clauses (value.description.getD "").toList).map fun clause =>
          opening ++ ['{'] ++ writtenTypes value ++ ['}'] ++ clause
  | .parameter value =>
      (clauses value.description.toList).map fun clause =>
        "@param ".toList ++ ['{'] ++ value.type.toList ++ ['}', ' '] ++ value.name.toList ++
          writtenDefault value ++ clause
  | .deprecated .current => []
  | .deprecated .deprecated => ["@deprecated".toList]
  | .deprecated (.because reason) => ["@deprecated ".toList ++ reason.toList]
  | .author name => ["@author ".toList ++ name.toList]
  | .access level => ["@access ".toList ++ level.toList]
  | .throws text => ["@throw ".toList ++ text.toList, "@throws ".toList ++ text.toList]
  | .todo text => ["@todo ".toList ++ text.toList]
  | .alias name => ["@alias ".toList ++ name.toList]
  | .link value => ["@link ".toList ++ value.url.toList ++ writtenCaption value]

/-- Whether a tag can be written. Every text is plain; beyond that, a text must not hold the mark
that ends it, and must not be empty where the tag would then read differently. -/
def IsWritable : Tag → Prop
  | .description text =>
      ∃ line, text = String.ofList ('\n' :: line) ∧ IsPlain line ∧ line ≠ [] ∧
        isRule line = false ∧ isOmitted line = false ∧ ∀ form ∈ forms, form line = none
  | .returns value =>
      ∃ types description, value = { types := some types, description := some description } ∧
        types ≠ [] ∧ IsPlain description.toList ∧
        ∀ type ∈ types, IsPlain type.toList ∧ '|' ∉ type.toList ∧ '}' ∉ type.toList
  | .parameter value =>
      IsPlain value.type.toList ∧ '}' ∉ value.type.toList ∧
        (∃ name, IsName name ∧ (value.name.toList = name ∨ value.name.toList = '$' :: name)) ∧
        (∀ default ∈ value.default,
          IsPlain default.toList ∧ default.toList ≠ [] ∧ IsFlat default.toList) ∧
        IsPlain value.description.toList
  | .deprecated .current => False
  | .deprecated .deprecated => True
  | .deprecated (.because text) | .author text | .throws text | .todo text =>
      IsPlain text.toList ∧ text.toList ≠ []
  | .access text | .alias text => IsWord text.toList
  | .link value =>
      IsWord value.url.toList ∧
        ∀ caption ∈ value.caption, IsPlain caption.toList ∧ caption.toList ≠ []

/-- A comment line that holds the tag. Spaces at its end do not matter. -/
def IsWrittenOn (tag : Tag) (line : Line) : Prop :=
  ∃ text ∈ tag.spellings, ∃ gap, line = "/// ".toList ++ text ++ List.replicate gap ' '

end Tag

namespace Item

def descriptionTexts (item : Item) : List (List Char) :=
  if item.description = "" then [] else item.description.toList.splitOn '\n'

/-- The deprecation, if there is one to write. -/
def deprecations (item : Item) : List Deprecation :=
  if item.deprecated = .current then [] else [item.deprecated]

/-- The return value, if there is one to write. -/
def returnValues (item : Item) : List Return :=
  if item.returns = {} then [] else [item.returns]

/-- The tags of an item, field by field. -/
def tags (item : Item) : List Tag :=
  item.descriptionTexts.map (fun line => .description (String.ofList ('\n' :: line))) ++
    [.access item.access] ++
    item.deprecations.map .deprecated ++ item.author.toList.map .author ++
    item.returnValues.map .returns ++ item.parameters.map .parameter ++
    item.throws.map .throws ++ item.todos.map .todo ++ item.aliases.map .alias ++
    item.links.map .link

/-- Whether an item can be written. -/
def IsWritable (item : Item) : Prop :=
  IsName item.name.toList ∧ ∀ tag ∈ item.tags, tag.IsWritable

/-- The item's tags in an order that keeps the order within each field. Public access goes without
saying. -/
def HasTags (item : Item) (tags : List Tag) : Prop :=
  ∀ field : String, tags.filter (·.field = field) = item.tags.filter (·.field = field) ∨
    field = "access" ∧ item.access = "public" ∧ tags.filter (·.field = field) = []

def header (item : Item) (rest : List Char) : Line :=
  '@' :: (item.kind.keyword.toList ++ ' ' :: (item.name.toList ++ rest))

/-- The lines of a stylesheet that holds the item's documentation and its header, and nothing
else. The header may go on behind the name. -/
def IsWrittenOn (item : Item) (lines : List Line) : Prop :=
  ∃ tags comments rest, item.HasTags tags ∧ List.Forall₂ Tag.IsWrittenOn tags comments ∧
    (∀ c ∈ rest.head?, isNameChar c = false) ∧ '\n' ∉ rest ∧ '\r' ∉ rest ∧
    lines = comments ++ [item.header rest]

end Item

end StyleDoc
