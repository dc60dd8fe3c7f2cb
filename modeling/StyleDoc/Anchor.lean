import StyleDoc.Item
import StyleDoc.Unicode.Alphanumeric
import StyleDoc.Unicode.Lowercase

/-!
Anchors that an index can point to. A slug is the lower-cased text without punctuation, in which
hyphens take the place of spaces. The anchor of an item begins with its kind, so that a function
and a mixin of one name stay apart.
-/

namespace StyleDoc

namespace Slug

/-- Characters that a slug does not lose. -/
def keeps (c : Char) : Bool :=
  Unicode.isAlphanumeric c || c == ' ' || c == '-' || c == '_'

def ofChars (text : List Char) : List Char :=
  ((Unicode.lowercase text).filter keeps).map fun c => if c = ' ' then '-' else c

def ofText (text : String) : String :=
  String.ofList (ofChars text.toList)

end Slug

/-- The name under which the section of an item is found. -/
def Item.anchor (item : Item) : String :=
  Slug.ofText (item.kind.keyword ++ " " ++ item.name)

end StyleDoc
