import StyleDoc.Block
import StyleDoc.Declaration
import StyleDoc.Text.Lines

/-!
A stylesheet read as a sequence of documented declarations. Lines are looked at one by one, so a
header inside a comment or a string counts as well; each one comes with the comment block above it.
-/

namespace StyleDoc

/-- A declaration with the number of its line, counted from zero, and its comment block. -/
structure Section where
  line : Nat
  declaration : Declaration
  comments : List Line
  deriving DecidableEq, Repr

/-- The documentation of one declaration. -/
def Section.item (part : Section) : Item :=
  { Block.item part.comments with
    kind := part.declaration.kind
    name := part.declaration.name }

namespace Stylesheet

/-- The documented declarations among the given lines, in order. -/
def sectionsOfLines (lines : List Line) : List Section :=
  lines.zipIdx.filterMap fun (line, index) =>
    (Declaration.ofLine? line).map fun declaration =>
      { line := index, declaration, comments := Block.above lines index }

def lines (content : String) : List Line :=
  Text.lines content.toList

def sections (content : String) : List Section :=
  sectionsOfLines (lines content)

/-- The documentation of a stylesheet, one item per declaration. -/
def items (content : String) : List Item :=
  (sections content).map Section.item

end Stylesheet

end StyleDoc
