import StyleDoc.Item
import StyleDoc.Json.Value

/-!
The JSON shape of an item. A missing author or return description and an item that is still
current are written as false; missing types, defaults and captions are written as null.
-/

namespace StyleDoc

namespace Json

def strings (texts : List String) : Json :=
  .array (texts.map .string)

def stringOrFalse : Option String → Json
  | some text => .string text
  | none => .bool false

def stringOrNull : Option String → Json
  | some text => .string text
  | none => .null

def ofDeprecation : Deprecation → Json
  | .current => .bool false
  | .deprecated => .bool true
  | .because reason => .string reason

def ofReturn (returns : Return) : Json :=
  .object [
    ("type", match returns.types with
      | some types => strings types
      | none => .null),
    ("description", stringOrFalse returns.description)]

def ofParameter (parameter : Parameter) : Json :=
  .object [
    ("type", .string parameter.type),
    ("name", .string parameter.name),
    ("default", stringOrNull parameter.default),
    ("description", .string parameter.description)]

def ofLink (link : Link) : Json :=
  .object [("url", .string link.url), ("caption", stringOrNull link.caption)]

def ofItem (item : Item) : Json :=
  .object [
    ("type", .string item.kind.keyword),
    ("name", .string item.name),
    ("description", .string item.description),
    ("access", .string item.access),
    ("deprecated", ofDeprecation item.deprecated),
    ("author", stringOrFalse item.author),
    ("return", ofReturn item.returns),
    ("parameters", .array (item.parameters.map ofParameter)),
    ("throws", strings item.throws),
    ("todos", strings item.todos),
    ("alias", strings item.aliases),
    ("link", .array (item.links.map ofLink))]

/-- The page that lists the items of a document. Its title is not part of it. -/
def page (document : Document) : String :=
  String.ofList (print 0 (.array (document.items.map ofItem)) ++ ['\n'])

end Json

end StyleDoc
