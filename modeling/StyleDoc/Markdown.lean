import StyleDoc.Anchor
import StyleDoc.Text.Lines

/-!
Documents as Markdown. A page is a list of lines, each ended by a line feed; a text with line
breaks of its own counts as one of them. Only the cells of a table are protected, since everywhere
else an author may use Markdown.
-/

namespace StyleDoc.Markdown

/-- An entry of the index, which points to the section of the item. -/
def indexEntry (item : Item) : String :=
  s!"* [{item.name}](#{item.anchor}) ({item.kind.keyword})"

def link (value : Link) : String :=
  s!"[{value.text}]({value.url})"

def code (text : String) : String :=
  s!"`{text}`"

/-- A section of lines under a heading, left out when it has none. -/
def part (title : String) (body : List String) : List String :=
  if body.isEmpty then [] else s!"#### {title}" :: "" :: body ++ [""]

def bullet (text : String) : String :=
  s!"* {text}"

/-- Quoted notes about an item that is deprecated or not public. -/
def notes (item : Item) : List String :=
  let deprecation :=
    match item.deprecated with
    | .current => []
    | .deprecated => ["> **Deprecated**"]
    | .because reason => [s!"> **Deprecated**: {reason}"]
  let access := if item.access = "public" then [] else [s!"> *{code item.access}*"]
  match deprecation ++ access with
  | [] => []
  | [note] => [note, ""]
  | first :: rest => first :: ">" :: rest ++ [""]

/-- A text inside a table, where a bar would end the cell and a line feed the row. -/
def cell (text : String) : String :=
  String.ofList (text.toList.flatMap fun c =>
    if c = '|' then ['\\', '|'] else if c = '\n' then [' '] else [c])

def parameterRow (parameter : Parameter) : String :=
  let default := (parameter.default.map code).getD "-"
  s!"| {code parameter.name} | {code (cell parameter.type)} | {cell default} | " ++
    s!"{cell parameter.description} |"

def parameterTable (parameters : List Parameter) : List String :=
  if parameters.isEmpty then []
  else
    "| Name | Type | Default | Description |" ::
      "|------|------|---------|-------------|" :: parameters.map parameterRow

def returnLine (types : List String) (description : Option String) : String :=
  let alternatives := String.intercalate " | " (types.map code)
  match description with
  | some text => if text = "" then alternatives else s!"{alternatives}: {text}"
  | none => alternatives

/-- The section of one item. -/
def itemLines (item : Item) : List String :=
  [s!"<a id=\"{item.anchor}\"></a>", "", s!"### {item.name}", "", s!"_{item.kind.keyword}_", ""] ++
    notes item ++
    (if item.description = "" then [] else [item.description, ""]) ++
    part "Parameters" (parameterTable item.parameters) ++
    (match item.returns.types with
      | some types => part "Returns" [returnLine types item.returns.description]
      | none => []) ++
    part "Throws" (item.throws.map bullet) ++
    part "Aliases" (item.aliases.map bullet) ++
    part "See also" (item.links.map fun value => bullet (link value)) ++
    part "Todo" (item.todos.map bullet) ++
    (match item.author with
      | some author => [s!"_Author: {author}_", ""]
      | none => [])

def titleLines (title : String) : List String :=
  if title = "" then [] else [s!"# {title}", ""]

def indexLines (items : List Item) : List String :=
  if items.isEmpty then [] else "## Index" :: "" :: items.map indexEntry ++ [""]

def pageLines (document : Document) : List String :=
  titleLines document.title ++ indexLines document.items ++ document.items.flatMap itemLines

def page (document : Document) : String :=
  Text.unlines (pageLines document)

end StyleDoc.Markdown
