import StyleDoc.Html.Page
import StyleDoc.Proofs.Html.Cut

/-!
The layout of a page: its tags and fixed words, with a hole for every text of the document. A
layout is a forest, so its elements are closed and nested by construction, and holes stand only in
text and in the values of `id` and `href`. It is drawn from the shape of a document, in which no
text occurs; each hole names the text that belongs there.
-/

namespace StyleDoc

/-- A text of an item, by its place in the item. Places in a list are counted from zero. -/
inductive Item.Field where
  | anchor
  | name
  | reason
  | access
  | description
  | parameterName (n : Nat)
  | parameterType (n : Nat)
  | parameterDefault (n : Nat)
  | parameterDescription (n : Nat)
  | returnType (n : Nat)
  | returnDescription
  | throws (n : Nat)
  | alias (n : Nat)
  | linkUrl (n : Nat)
  | linkText (n : Nat)
  | todo (n : Nat)
  | author
  deriving DecidableEq, Repr

/-- The text in a place of an item, if the item has that place. -/
def Item.text? (item : Item) : Item.Field → Option String
  | .anchor => some item.anchor
  | .name => some item.name
  | .reason =>
      match item.deprecated with
      | .because reason => some reason
      | _ => none
  | .access => some item.access
  | .description => some item.description
  | .parameterName n => item.parameters[n]?.map Parameter.name
  | .parameterType n => item.parameters[n]?.map Parameter.type
  | .parameterDefault n => item.parameters[n]?.bind Parameter.default
  | .parameterDescription n => item.parameters[n]?.map Parameter.description
  | .returnType n => item.returns.types.bind (·[n]?)
  | .returnDescription => item.returns.description
  | .throws n => item.throws[n]?
  | .alias n => item.aliases[n]?
  | .linkUrl n => item.links[n]?.map Link.url
  | .linkText n => item.links[n]?.map Link.text
  | .todo n => item.todos[n]?
  | .author => item.author

/-- A text of a document, by its place. -/
inductive Document.Field where
  | title
  | item (n : Nat) (field : Item.Field)
  deriving DecidableEq, Repr

def Document.text? (document : Document) : Document.Field → Option String
  | .title => some document.title
  | .item n field => document.items[n]?.bind (·.text? field)

/-- A deprecation without its reason. -/
inductive Deprecation.Form where
  | current
  | deprecated
  | because
  deriving DecidableEq, Repr

def Deprecation.form : Deprecation → Deprecation.Form
  | .current => .current
  | .deprecated => .deprecated
  | .because _ => .because

/-- What an item has, without the texts: the parameters are told apart by whether they have a
default, and of all other lists only the length is known. -/
structure Item.Shape where
  kind : Kind
  deprecation : Deprecation.Form
  isPublic : Bool
  isUndescribed : Bool
  defaults : List Bool
  returnTypes : Option Nat
  hasReturnText : Bool
  throws : Nat
  aliases : Nat
  links : Nat
  todos : Nat
  hasAuthor : Bool
  deriving DecidableEq, Repr

def Item.shape (item : Item) : Item.Shape where
  kind := item.kind
  deprecation := item.deprecated.form
  isPublic := item.access = "public"
  isUndescribed := item.description = ""
  defaults := item.parameters.map (·.default.isSome)
  returnTypes := item.returns.types.map List.length
  hasReturnText := item.returns.description.any (· ≠ "")
  throws := item.throws.length
  aliases := item.aliases.length
  links := item.links.length
  todos := item.todos.length
  hasAuthor := item.author.isSome

structure Document.Shape where
  isUntitled : Bool
  items : List Item.Shape
  deriving DecidableEq, Repr

def Document.shape (document : Document) : Document.Shape where
  isUntitled := document.title = ""
  items := document.items.map Item.shape

namespace Html

/-- The elements of a page. -/
inductive Element where
  | a | body | code | em | h1 | h2 | h3 | h4 | head | html | li | p | small | span | strong | style
  | table | td | th | title | tr | ul
  deriving DecidableEq, Repr

def Element.name : Element → String
  | .a => "a"
  | .body => "body"
  | .code => "code"
  | .em => "em"
  | .h1 => "h1"
  | .h2 => "h2"
  | .h3 => "h3"
  | .h4 => "h4"
  | .head => "head"
  | .html => "html"
  | .li => "li"
  | .p => "p"
  | .small => "small"
  | .span => "span"
  | .strong => "strong"
  | .style => "style"
  | .table => "table"
  | .td => "td"
  | .th => "th"
  | .title => "title"
  | .tr => "tr"
  | .ul => "ul"

/-- The attributes of elements. Only those that refer to something hold a text of the document. -/
inductive Attribute where
  | kindMark (kind : Kind)
  | deprecated
  | id (field : Document.Field)
  | fragment (field : Document.Field)
  | address (field : Document.Field)
  deriving DecidableEq, Repr

/-- The attributes of an opening tag, where the place that is referred to has the given text. -/
inductive Attribute.Gives (document : Document) :
    Option Attribute → List (String × String) → Prop where
  | none : Gives document none []
  | kindMark (kind : Kind) :
      Gives document (some (.kindMark kind)) [("class", "tag tag-" ++ kind.keyword)]
  | deprecated : Gives document (some .deprecated) [("class", "deprecated")]
  | id {field : Document.Field} {text : String} :
      document.text? field = some text → Gives document (some (.id field)) [("id", text)]
  | fragment {field : Document.Field} {text : String} :
      document.text? field = some text →
      Gives document (some (.fragment field)) [("href", "#" ++ text)]
  | address {field : Document.Field} {text : String} :
      document.text? field = some text → Gives document (some (.address field)) [("href", text)]

/-- Tags, words and holes in the order of the page. A node is an element with its contents. -/
inductive Layout where
  | nil
  | words (text : String) (rest : Layout)
  | hole (field : Document.Field) (rest : Layout)
  | doctype (rest : Layout)
  | charset (rest : Layout)
  | node (element : Element) (attr : Option Attribute) (contents rest : Layout)

namespace Layout

/-- The pieces of a page that has the layout, with the texts of the document in the holes. -/
inductive Gives (document : Document) : Layout → List Piece → Prop where
  | nil : Gives document nil []
  | words (text : String) {rest : Layout} {pieces : List Piece} :
      Gives document rest pieces → Gives document (words text rest) (.text text :: pieces)
  | hole {field : Document.Field} {text : String} {rest : Layout} {pieces : List Piece} :
      document.text? field = some text → Gives document rest pieces →
      Gives document (hole field rest) (.text text :: pieces)
  | doctype {rest : Layout} {pieces : List Piece} :
      Gives document rest pieces → Gives document (doctype rest) (.doctype :: pieces)
  | charset {rest : Layout} {pieces : List Piece} :
      Gives document rest pieces →
      Gives document (charset rest) (.opening "meta" [("charset", "utf-8")] :: pieces)
  | node (element : Element) {attr : Option Attribute} {attributes : List (String × String)}
      {contents rest : Layout} {inside pieces : List Piece} :
      Attribute.Gives document attr attributes → Gives document contents inside →
      Gives document rest pieces →
      Gives document (node element attr contents rest)
        (Html.element element.name attributes inside ++ pieces)

def append : Layout → Layout → Layout
  | nil, more => more
  | words text rest, more => words text (rest.append more)
  | hole field rest, more => hole field (rest.append more)
  | doctype rest, more => doctype (rest.append more)
  | charset rest, more => charset (rest.append more)
  | node element attr contents rest, more =>
      node element attr contents (rest.append more)

instance : Append Layout := ⟨append⟩

def text (words : String) : Layout :=
  .words words nil

def field (field : Document.Field) : Layout :=
  hole field nil

def element (element : Element) (attr : Option Attribute) (contents : Layout) : Layout :=
  node element attr contents nil

def lineEnd : Layout :=
  text "\n"

def indented (contents : Layout) : Layout :=
  text "  " ++ contents ++ lineEnd

def block (name : Element) (contents : Layout) : Layout :=
  element name none (lineEnd ++ contents) ++ lineEnd

def line (name : Element) (attr : Option Attribute) (contents : Layout) : Layout :=
  element name attr contents ++ lineEnd

def code (place : Document.Field) : Layout :=
  element .code none (field place)

/-- One part after the other, each with its number. -/
def numbered {σ : Type} (part : Nat → σ → Layout) : Nat → List σ → Layout
  | _, [] => nil
  | n, shape :: shapes => part n shape ++ numbered part (n + 1) shapes

def kindMark (kind : Kind) : Layout :=
  element .span (some (.kindMark kind)) (text kind.keyword)

def indexEntry (n : Nat) (shape : Item.Shape) : Layout :=
  indented (element .li none (
    element .a (some (.fragment (.item n .anchor))) (field (.item n .name)) ++
      (text " " ++ kindMark shape.kind)))

def index (items : List Item.Shape) : Layout :=
  if items.isEmpty then nil
  else line .h2 none (text "Index") ++ block .ul (numbered indexEntry 0 items)

def heading (n : Nat) (kind : Kind) : Layout :=
  line .h3 (some (.id (.item n .anchor)))
    (field (.item n .name) ++ (text " " ++ kindMark kind))

def deprecation (n : Nat) : Deprecation.Form → Layout
  | .current => nil
  | .deprecated => line .p (some .deprecated) (element .strong none (text "Deprecated"))
  | .because =>
      line .p (some .deprecated)
        (element .strong none (text "Deprecated:") ++ (text " " ++ field (.item n .reason)))

def access (n : Nat) (isPublic : Bool) : Layout :=
  if isPublic then nil else line .p none (element .em none (field (.item n .access)))

def description (n : Nat) (isUndescribed : Bool) : Layout :=
  if isUndescribed then nil else line .p none (field (.item n .description))

def parameterRow (n k : Nat) (hasDefault : Bool) : Layout :=
  indented (element .tr none (
    element .td none (code (.item n (.parameterName k))) ++
      element .td none (code (.item n (.parameterType k))) ++
      element .td none (if hasDefault then code (.item n (.parameterDefault k)) else nil) ++
      element .td none (field (.item n (.parameterDescription k)))))

def parameterHeader : Layout :=
  indented (element .tr none (
    numbered (fun _ title => element .th none (text title)) 0
      ["Name", "Type", "Default", "Description"]))

def parameterTable (n : Nat) (defaults : List Bool) : Layout :=
  if defaults.isEmpty then nil
  else
    line .h4 none (text "Parameters") ++
      block .table (parameterHeader ++ numbered (parameterRow n) 0 defaults)

/-- The alternatives from number `k` on, with a bar between them. -/
def alternatives (n k : Nat) : Nat → Layout
  | 0 => nil
  | 1 => code (.item n (.returnType k))
  | count + 2 =>
      code (.item n (.returnType k)) ++ (text " | " ++ alternatives n (k + 1) (count + 1))

def returns (n : Nat) (types : Option Nat) (hasText : Bool) : Layout :=
  match types with
  | none => nil
  | some count =>
      line .h4 none (text "Returns") ++
        line .p none (alternatives n 0 count ++
          if hasText then text ": " ++ field (.item n .returnDescription) else nil)

def titledList (title : String) (count : Nat) (entry : Nat → Layout) : Layout :=
  if count = 0 then nil
  else
    line .h4 none (text title) ++
      block .ul (numbered (fun k _ => indented (element .li none (entry k))) 0
        (List.replicate count ()))

def linkEntry (n k : Nat) : Layout :=
  element .a (some (.address (.item n (.linkUrl k)))) (field (.item n (.linkText k)))

def author (n : Nat) (hasAuthor : Bool) : Layout :=
  if hasAuthor then
    line .p none (element .small none (text "Author: " ++ field (.item n .author)))
  else nil

def item (n : Nat) (shape : Item.Shape) : Layout :=
  heading n shape.kind ++ deprecation n shape.deprecation ++ access n shape.isPublic ++
    description n shape.isUndescribed ++ parameterTable n shape.defaults ++
    returns n shape.returnTypes shape.hasReturnText ++
    titledList "Throws" shape.throws (fun k => field (.item n (.throws k))) ++
    titledList "Aliases" shape.aliases (fun k => field (.item n (.alias k))) ++
    titledList "See also" shape.links (linkEntry n) ++
    titledList "Todo" shape.todos (fun k => field (.item n (.todo k))) ++
    author n shape.hasAuthor

def titleLine (name : Element) (isUntitled : Bool) : Layout :=
  if isUntitled then nil else line name none (field .title)

def head (isUntitled : Bool) : Layout :=
  block .head (charset lineEnd ++ titleLine .title isUntitled ++
    block .style (numbered (fun _ words => text words ++ lineEnd) 0 styleLines))

def body (shape : Document.Shape) : Layout :=
  block .body (titleLine .h1 shape.isUntitled ++ index shape.items ++ numbered item 0 shape.items)

/-- The layout of the pages of all documents of one shape. -/
def page (shape : Document.Shape) : Layout :=
  doctype lineEnd ++ block .html (head shape.isUntitled ++ body shape)

end Layout

end Html

end StyleDoc
