import StyleDoc.Html.Page
import StyleDoc.Json.Record
import StyleDoc.Markdown

/-!
The output formats, by the names under which they are asked for.
-/

namespace StyleDoc

inductive Format where
  | json
  | markdown
  | html
  deriving DecidableEq, Repr, Inhabited

namespace Format

/-- A name that no format has. -/
structure Unknown where
  name : String
  deriving DecidableEq, Repr

def Unknown.message (error : Unknown) : String :=
  s!"unknown format: {error.name}. Use json, markdown, or html"

def ofName (name : String) : Except Unknown Format :=
  match name with
  | "json" => .ok .json
  | "markdown" | "md" => .ok .markdown
  | "html" => .ok .html
  | _ => .error { name }

/-- The ending of the names of files in the format. -/
def extension : Format → String
  | .json => "json"
  | .markdown => "md"
  | .html => "html"

def render : Format → Document → String
  | .json => Json.page
  | .markdown => Markdown.page
  | .html => Html.page

end Format

end StyleDoc
