import StyleDoc.Text.Scan

/-!
Comment lines as they stand in a stylesheet. A line belongs to a comment if it opens one or if it
continues a block with a star of its own; a star that touches a word is a selector or a product and
not a comment. Taking the decoration off leaves the text that the author wrote.
-/

namespace StyleDoc

/-- One line of a stylesheet, without its line end. -/
abbrev Line := List Char

namespace Comment

open Text

/-- Whether the line belongs to a comment. -/
def covers (line : Line) : Bool :=
  match dropBlanks line with
  | '/' :: '/' :: _ => true
  | '/' :: '*' :: _ => true
  | '*' :: [] => true
  | '*' :: c :: _ => isBlank c || c == '/'
  | _ => false

/-- Whether the line holds nothing but blanks. -/
def isBlankLine (line : Line) : Bool :=
  line.all isBlank

/-- What follows the indentation and the marker that opens or continues a comment: two or more
slashes, a slash and stars, or stars and the slash that may close them. -/
def afterMarker (line : Line) : Line :=
  match dropBlanks line with
  | '/' :: '/' :: rest => rest.dropWhile (· == '/')
  | '/' :: '*' :: rest => rest.dropWhile (· == '*')
  | '*' :: rest =>
      match rest.dropWhile (· == '*') with
      | '/' :: after => after
      | after => after
  | rest => rest

/-- What stands before the stars and the slash that close a comment at the end of the line; a line
that does not close one is returned whole. -/
def beforeCloser (line : Line) : Line :=
  match line.reverse.dropWhile isBlank with
  | '/' :: '*' :: front => (front.dropWhile (· == '*')).reverse
  | _ => line

/-- The text of a comment line without its decoration. -/
def text (line : Line) : Line :=
  trim (beforeCloser (afterMarker line))

end Comment

end StyleDoc
