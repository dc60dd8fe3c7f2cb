import StyleDoc.Tag

/-!
The comment block that belongs to a declaration: the longest run of comment lines that ends
directly above it. Its lines are put together, in order, into one item.
-/

namespace StyleDoc

/-- Adds the contribution of one line to an item. -/
def Item.add (item : Item) : Tag → Item
  | .description text => { item with description := item.description ++ text }
  | .returns value => { item with returns := value }
  | .parameter value => { item with parameters := item.parameters ++ [value] }
  | .deprecated value => { item with deprecated := value }
  | .author name => { item with author := some name }
  | .access level => { item with access := level }
  | .throws text => { item with throws := item.throws ++ [text] }
  | .todo text => { item with todos := item.todos ++ [text] }
  | .alias name => { item with aliases := item.aliases ++ [name] }
  | .link value => { item with links := item.links ++ [value] }

namespace Block

/-- A line number with no line. -/
structure OutOfRange where
  index : Nat
  lineCount : Nat
  deriving DecidableEq, Repr

def OutOfRange.message (error : OutOfRange) : String :=
  s!"declaration index {error.index} out of range for {error.lineCount} lines"

/-- The comment lines met on a walk upward, in source order. The walk ends at a line that is no
comment, and once it has met a comment line also at a blank one. -/
def collect (collected : List Line) : List Line → List Line
  | [] => collected
  | line :: higher =>
      if !collected.isEmpty && Comment.isBlankLine line then collected
      else if !Comment.covers line then collected
      else collect (line :: collected) higher

/-- The comment lines directly above the line with the given number, counted from zero. -/
def above (lines : List Line) (index : Nat) : List Line :=
  collect [] (lines.take index).reverse

/-- The comment block of the declaration on the given line. -/
def locate (lines : List Line) (index : Nat) : Except OutOfRange (List Line) :=
  if index < lines.length then
    .ok (above lines index)
  else
    .error { index, lineCount := lines.length }

/-- The tags of a comment block in source order. -/
def tags (comments : List Line) : List Tag :=
  comments.filterMap fun line => Tag.ofLine? (Comment.text line)

/-- The line break that the first line of a description brings along is not part of it. -/
def dropFirstBreak (text : String) : String :=
  match text.toList with
  | '\n' :: rest => String.ofList rest
  | _ => text

/-- The item that a comment block describes, as yet without kind and name. -/
def item (comments : List Line) : Item :=
  let whole := (tags comments).foldl Item.add {}
  { whole with description := dropFirstBreak whole.description }

end Block

end StyleDoc
