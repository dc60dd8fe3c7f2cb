/-!
HTML as a sequence of pieces. Text and attribute values are held as they are meant and escaped only
when a piece is printed, so no text can be taken for markup.
-/

namespace StyleDoc.Html

/-- How a character is written in text and in attribute values. -/
def escapeChar (c : Char) : List Char :=
  if c = '&' then "&amp;".toList
  else if c = '<' then "&lt;".toList
  else if c = '>' then "&gt;".toList
  else if c = '"' then "&quot;".toList
  else [c]

def escapeChars (text : List Char) : List Char :=
  text.flatMap escapeChar

def escape (text : String) : String :=
  String.ofList (escapeChars text.toList)

inductive Piece where
  | doctype
  | opening (name : String) (attributes : List (String × String))
  | closing (name : String)
  | text (content : String)
  deriving DecidableEq, Repr, Inhabited

def printAttribute : String × String → List Char
  | (name, value) => ' ' :: name.toList ++ '=' :: '"' :: escapeChars value.toList ++ ['"']

def Piece.print : Piece → List Char
  | .doctype => "<!DOCTYPE html>".toList
  | .opening name attributes =>
      '<' :: name.toList ++ attributes.flatMap printAttribute ++ ['>']
  | .closing name => '<' :: '/' :: name.toList ++ ['>']
  | .text content => escapeChars content.toList

def printPieces (pieces : List Piece) : List Char :=
  pieces.flatMap Piece.print

/-- An element with its contents between its two tags. -/
def element (name : String) (attributes : List (String × String)) (contents : List Piece) :
    List Piece :=
  .opening name attributes :: contents ++ [.closing name]

/-- An element without attributes that holds one text. -/
def textElement (name content : String) : List Piece :=
  element name [] [.text content]

/-- The end of a line of the page. -/
def lineEnd : List Piece :=
  [.text "\n"]

/-- A line of the page that is indented by two spaces. -/
def indented (pieces : List Piece) : List Piece :=
  .text "  " :: pieces ++ lineEnd

end StyleDoc.Html
