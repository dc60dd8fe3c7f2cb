import StyleDoc.Item
import StyleDoc.Tag.Grammar

/-!
What one comment line contributes to an item. The forms of the tags exclude one another, so the
order in which they are tried does not matter; a line that has none of them is description.
-/

namespace StyleDoc

/-- The alternatives of a return type. -/
def Return.ofText (types description : List Char) : Return :=
  { types := some ((types.splitOn '|').map fun type => String.ofList (Text.trim type))
    description := some (String.ofList description) }

/-- A default that is blank counts as none. -/
def Parameter.ofText (text : Tag.ParameterText) : Parameter :=
  { type := String.ofList (Text.trim text.type)
    name := String.ofList text.name
    default := ((text.default.map Text.trim).filter (· ≠ [])).map String.ofList
    description := String.ofList text.description }

/-- An empty reason counts as none. -/
def Deprecation.ofText (reason : Option (List Char)) : Deprecation :=
  match reason.filter (· ≠ []) with
  | some text => .because (String.ofList text)
  | none => .deprecated

def Link.ofText (url : List Char) (caption : Option (List Char)) : Link :=
  { url := String.ofList url, caption := caption.map String.ofList }

/-- The contribution of one comment line. A line of description carries the line break that sets
it off from the line before. -/
inductive Tag where
  | description (text : String)
  | returns (value : Return)
  | parameter (value : Parameter)
  | deprecated (value : Deprecation)
  | author (name : String)
  | access (level : String)
  | throws (text : String)
  | todo (text : String)
  | alias (name : String)
  | link (value : Link)
  deriving DecidableEq, Repr

namespace Tag

/-- The name of the field that the tag contributes to. -/
def field : Tag → String
  | .description _ => "description"
  | .returns _ => "return"
  | .parameter _ => "parameters"
  | .deprecated _ => "deprecated"
  | .author _ => "author"
  | .access _ => "access"
  | .throws _ => "throws"
  | .todo _ => "todos"
  | .alias _ => "alias"
  | .link _ => "link"

/-- Whether repeated tags add up in a list. -/
def accumulates : Tag → Bool
  | .parameter _ | .throws _ | .todo _ | .alias _ | .link _ => true
  | _ => false

/-- The forms of a tag line, each with the tag it gives. -/
def forms : List (Line → Option Tag) :=
  [fun line => (return? line).map fun (types, text) => .returns (Return.ofText types text),
   fun line => (parameter? line).map fun text => .parameter (Parameter.ofText text),
   fun line => (deprecated? line).map fun reason => .deprecated (Deprecation.ofText reason),
   fun line => (author? line).map fun text => .author (String.ofList text),
   fun line => (access? line).map fun text => .access (String.ofList text),
   fun line => (throws? line).map fun text => .throws (String.ofList text),
   fun line => (todo? line).map fun text => .todo (String.ofList text),
   fun line => (alias? line).map fun text => .alias (String.ofList text),
   fun line => (link? line).map fun (url, caption) => .link (Link.ofText url caption)]

/-- Whether the line contributes nothing. -/
def isSkipped (line : Line) : Bool :=
  line.isEmpty || isRule line || isOmitted line

/-- The contribution of a comment line whose decoration has been taken off. -/
def ofLine? (line : Line) : Option Tag :=
  if isSkipped line then
    none
  else
    match forms.findSome? (· line) with
    | some tag => some tag
    | none => some (.description (String.ofList ('\n' :: line)))

end Tag

end StyleDoc
