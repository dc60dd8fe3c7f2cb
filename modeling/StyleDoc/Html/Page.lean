import StyleDoc.Anchor
import StyleDoc.Html.Piece

/-!
Documents as HTML pages that stand alone. Each function gives the pieces of one part of the page,
line by line, with its elements closed.
-/

namespace StyleDoc.Html

/-- The style sheet of every page. -/
def styleLines : List String :=
  ["body \x7b font-family: system-ui, sans-serif; max-width: 48em; margin: 2em auto; " ++
     "padding: 0 1em; \x7d",
   "code \x7b background: #f4f4f4; padding: 0.15em 0.3em; border-radius: 3px; \x7d",
   "table \x7b border-collapse: collapse; \x7d",
   "th, td \x7b border: 1px solid #ddd; padding: 0.3em 0.6em; text-align: left; \x7d",
   ".tag \x7b display: inline-block; font-size: 0.75em; padding: 0.1em 0.4em; " ++
     "border-radius: 3px; margin-left: 0.5em; \x7d",
   ".tag-function \x7b background: #c6538c; color: white; \x7d",
   ".tag-mixin \x7b background: #4a90d9; color: white; \x7d",
   ".deprecated \x7b color: #a33; \x7d"]

/-- An element with the line break after its opening tag and its closing tag that blocks have. -/
def block (name : String) (contents : List Piece) : List Piece :=
  element name [] (lineEnd ++ contents) ++ lineEnd

/-- A line that holds one element. -/
def line (name : String) (attributes : List (String × String)) (contents : List Piece) :
    List Piece :=
  element name attributes contents ++ lineEnd

def code (text : String) : List Piece :=
  textElement "code" text

/-- The mark that shows the kind of an item. -/
def kindMark (kind : Kind) : List Piece :=
  element "span" [("class", "tag tag-" ++ kind.keyword)] [.text kind.keyword]

def indexEntry (item : Item) : List Piece :=
  indented (element "li" [] (
    element "a" [("href", "#" ++ item.anchor)] [.text item.name] ++ .text " " ::
      kindMark item.kind))

def index (items : List Item) : List Piece :=
  if items.isEmpty then []
  else line "h2" [] [.text "Index"] ++ block "ul" (items.flatMap indexEntry)

def heading (item : Item) : List Piece :=
  line "h3" [("id", item.anchor)] (.text item.name :: .text " " :: kindMark item.kind)

def deprecation : Deprecation → List Piece
  | .current => []
  | .deprecated => line "p" [("class", "deprecated")] (textElement "strong" "Deprecated")
  | .because reason =>
      line "p" [("class", "deprecated")]
        (textElement "strong" "Deprecated:" ++ [.text " ", .text reason])

def access (level : String) : List Piece :=
  if level = "public" then [] else line "p" [] (textElement "em" level)

def description (text : String) : List Piece :=
  if text = "" then [] else line "p" [] [.text text]

def parameterRow (parameter : Parameter) : List Piece :=
  let default :=
    match parameter.default with
    | some text => code text
    | none => []
  indented (element "tr" [] (
    element "td" [] (code parameter.name) ++ element "td" [] (code parameter.type) ++
      element "td" [] default ++ textElement "td" parameter.description))

def parameterHeader : List Piece :=
  indented (element "tr" [] (
    ["Name", "Type", "Default", "Description"].flatMap (textElement "th")))

def parameterTable (parameters : List Parameter) : List Piece :=
  if parameters.isEmpty then []
  else
    line "h4" [] [.text "Parameters"] ++
      block "table" (parameterHeader ++ parameters.flatMap parameterRow)

/-- The alternatives of a return type, with a bar between them. -/
def alternatives : List String → List Piece
  | [] => []
  | [type] => code type
  | type :: types => code type ++ .text " | " :: alternatives types

def returns (value : Return) : List Piece :=
  match value.types with
  | none => []
  | some types =>
      let text :=
        match value.description with
        | some text => if text = "" then [] else [.text ": ", .text text]
        | none => []
      line "h4" [] [.text "Returns"] ++ line "p" [] (alternatives types ++ text)

/-- A titled list, left out when it has no entries. -/
def titledList (title : String) (entries : List (List Piece)) : List Piece :=
  if entries.isEmpty then []
  else
    line "h4" [] [.text title] ++
      block "ul" (entries.flatMap fun entry => indented (element "li" [] entry))

def textEntries (texts : List String) : List (List Piece) :=
  texts.map fun text => [.text text]

def linkEntry (link : Link) : List Piece :=
  element "a" [("href", link.url)] [.text link.text]

def author : Option String → List Piece
  | some name => line "p" [] (element "small" [] [.text "Author: ", .text name])
  | none => []

/-- The section of one item. -/
def itemPieces (item : Item) : List Piece :=
  heading item ++ deprecation item.deprecated ++ access item.access ++
    description item.description ++ parameterTable item.parameters ++ returns item.returns ++
    titledList "Throws" (textEntries item.throws) ++
    titledList "Aliases" (textEntries item.aliases) ++
    titledList "See also" (item.links.map linkEntry) ++
    titledList "Todo" (textEntries item.todos) ++ author item.author

/-- A line that repeats the title of the document, left out when it has none. -/
def titleLine (name title : String) : List Piece :=
  if title = "" then [] else line name [] [.text title]

def head (title : String) : List Piece :=
  block "head" (
    .opening "meta" [("charset", "utf-8")] :: lineEnd ++ titleLine "title" title ++
      block "style" (styleLines.flatMap fun text => .text text :: lineEnd))

def body (document : Document) : List Piece :=
  block "body" (
    titleLine "h1" document.title ++ index document.items ++ document.items.flatMap itemPieces)

def pagePieces (document : Document) : List Piece :=
  .doctype :: lineEnd ++ block "html" (head document.title ++ body document)

def page (document : Document) : String :=
  String.ofList (printPieces (pagePieces document))

end StyleDoc.Html
