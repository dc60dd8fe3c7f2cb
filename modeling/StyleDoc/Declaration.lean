import StyleDoc.Item
import StyleDoc.Comment

/-!
Headers of functions and mixins. The at sign is optional, and nothing after the name is looked at.
-/

namespace StyleDoc

structure Declaration where
  kind : Kind
  name : String
  deriving DecidableEq, Repr, Inhabited

namespace Declaration

open Text

/-- The kind whose keyword the line starts with, and what follows the keyword. -/
def keyword? (line : Line) : Option (Kind × Line) :=
  match literal? Kind.function.keyword.toList line with
  | some rest => some (.function, rest)
  | none => (literal? Kind.mixin.keyword.toList line).map fun rest => (.mixin, rest)

/-- The declaration that the line is a header of. -/
def ofLine? (line : Line) : Option Declaration := do
  let start :=
    match dropBlanks line with
    | '@' :: rest => rest
    | rest => rest
  let (kind, afterKeyword) ← keyword? start
  let (name, _) ← run? isNameChar (← blanks? afterKeyword)
  return { kind, name := String.ofList name }

end Declaration

end StyleDoc
