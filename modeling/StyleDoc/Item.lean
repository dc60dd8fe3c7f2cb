/-!
The documentation of one function or mixin, and of a stylesheet as a whole. An item that nothing
was written about has the default value of every field, so a comment only ever overrides.
-/

namespace StyleDoc

/-- What a declaration introduces. -/
inductive Kind where
  | function
  | mixin
  deriving DecidableEq, Repr, Inhabited

/-- The word that introduces a declaration, which is also how output names the kind. -/
def Kind.keyword : Kind → String
  | .function => "function"
  | .mixin => "mixin"

def Kind.ofKeyword? (word : String) : Option Kind :=
  if word = "function" then some .function
  else if word = "mixin" then some .mixin
  else none

theorem Kind.ofKeyword?_keyword (kind : Kind) : Kind.ofKeyword? kind.keyword = some kind := by
  cases kind <;> decide

/-- Whether an item is still meant to be used. -/
inductive Deprecation where
  | current
  | deprecated
  | because (reason : String)
  deriving DecidableEq, Repr, Inhabited

/-- What a function gives back. The types are alternatives in the order written. -/
structure Return where
  types : Option (List String) := none
  description : Option String := none
  deriving DecidableEq, Repr, Inhabited

structure Parameter where
  type : String
  name : String
  default : Option String := none
  description : String
  deriving DecidableEq, Repr, Inhabited

structure Link where
  url : String
  caption : Option String := none
  deriving DecidableEq, Repr, Inhabited

/-- The caption of a link, for which its address stands in. -/
def Link.text (link : Link) : String :=
  link.caption.getD link.url

/-- The documentation of one function or mixin. -/
structure Item where
  kind : Kind := .function
  name : String := ""
  description : String := ""
  access : String := "public"
  deprecated : Deprecation := .current
  author : Option String := none
  returns : Return := {}
  parameters : List Parameter := []
  throws : List String := []
  todos : List String := []
  aliases : List String := []
  links : List Link := []
  deriving DecidableEq, Repr, Inhabited

/-- Whether the item is meant for its own stylesheet alone. -/
def Item.isPrivate (item : Item) : Bool :=
  item.access = "private"

/-- The items that are shown: private ones only if they are asked for. -/
def Item.visible (showPrivate : Bool) (items : List Item) : List Item :=
  if showPrivate then items else items.filter (!·.isPrivate)

/-- The documentation of one stylesheet. The title is empty for text that has no file name. -/
structure Document where
  title : String := ""
  items : List Item := []
  deriving DecidableEq, Repr, Inhabited

end StyleDoc
