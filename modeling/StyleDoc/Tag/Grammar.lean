import StyleDoc.Comment
import StyleDoc.Unicode.Word

/-!
The forms of a tag line. Each function reads one tag from a comment line and returns the texts
between its marks, or fails when the line has another form. Free text at the end of a tag has to
reach the end of the line, so a line feed in it makes the whole tag fail; types, and the gaps
between words, may hold one.
-/

namespace StyleDoc.Tag

open Text

/-- What follows the name of a tag. -/
def named? (name : String) (line : Line) : Option Line :=
  literal? name.toList line

/-- Drops one character if the text starts with it. -/
def dropOptional (c : Char) : List Char → List Char
  | [] => []
  | d :: rest => if d = c then rest else d :: rest

/-- Free text is complete only if no line feed interrupts it. -/
def unbroken? (text : List Char) : Option (List Char) :=
  if text.contains '\n' then none else some text

/-- Words after a gap. A gap with nothing behind it still counts as words when it can give up its
last blank to them. -/
def words? (text : List Char) : Option (List Char) :=
  match text.takeWhile isBlank, text.dropWhile isBlank with
  | [], _ => none
  | gap, [] =>
      match gap.reverse with
      | last :: _ :: _ => unbroken? [last]
      | _ => none
  | _, words => unbroken? words

/-- The first word after a gap; whatever follows it is not looked at. -/
def word? (text : List Char) : Option (List Char) := do
  let (word, _) ← run? (! isBlank ·) (← blanks? text)
  return word

/-- A description at the end of a line, which a hyphen after a gap may introduce. -/
def description? (text : List Char) : Option (List Char) :=
  let body :=
    match blanks? text with
    | some ('-' :: rest) => rest
    | _ => text
  unbroken? (dropBlanks body)

/-- Text up to the parenthesis that closes it, and what follows that parenthesis. Parentheses
inside the text come in pairs that are not nested; `inside` tells that one of them is open. -/
def upToClosing? (inside : Bool) : List Char → Option (List Char × List Char)
  | [] => none
  | c :: rest =>
      if c = ')' && !inside then
        some ([], rest)
      else if c = '(' && inside then
        none
      else do
        let (text, after) ← upToClosing? (c = '(' || (inside && c ≠ ')')) rest
        return (c :: text, after)

/-- A text in parentheses after a gap, and what follows it. -/
def default? (text : List Char) : Option (List Char × List Char) :=
  match blanks? text with
  | some ('(' :: rest) => upToClosing? false rest
  | _ => none

/-- The name of a parameter, whose dollar sign is optional, and what follows it. -/
def parameterName? (text : List Char) : Option (List Char × List Char) :=
  match text with
  | '$' :: rest => (run? isNameChar rest).map fun (name, after) => ('$' :: name, after)
  | _ => run? isNameChar text

/-- A line that is only decoration: marks and blanks, with at least three marks. -/
def isRule (line : Line) : Bool :=
  let isMark (c : Char) : Bool := "-=*#~_/".toList.contains c
  line.all (fun c => isBlank c || isMark c) && 3 ≤ line.countP isMark

/-- A line that asks to be left out. -/
def isOmitted (line : Line) : Bool :=
  match named? "@ignore" line with
  | some [] => true
  | some (c :: _) => !Unicode.isWordChar c
  | none => false

/-- The texts of a return tag: its types and its description. -/
def return? (line : Line) : Option (List Char × List Char) := do
  let rest ← named? "@return" line
  let (types, after) ← braced? (← blanks? (dropOptional 's' rest))
  return (types, ← description? after)

/-- The texts of a parameter tag. -/
structure ParameterText where
  type : List Char
  name : List Char
  default : Option (List Char)
  description : List Char
  deriving DecidableEq, Repr

def parameter? (line : Line) : Option ParameterText := do
  let (type, afterType) ← braced? (← blanks? (← named? "@param" line))
  let (name, afterName) ← parameterName? (← blanks? afterType)
  match default? afterName with
  | some (default, after) =>
      return { type, name, default := some default, description := ← description? after }
  | none =>
      return { type, name, default := none, description := ← description? afterName }

/-- A deprecation with the reason given for it, if any. -/
def deprecated? (line : Line) : Option (Option (List Char)) := do
  let rest ← named? "@deprecated" line
  if rest = [] then
    return none
  else
    return some (← unbroken? (← blanks? rest))

def author? (line : Line) : Option (List Char) := do
  words? (← named? "@author" line)

def access? (line : Line) : Option (List Char) := do
  word? (← named? "@access" line)

def throws? (line : Line) : Option (List Char) := do
  words? (dropOptional 's' (← named? "@throw" line))

def todo? (line : Line) : Option (List Char) := do
  words? (← named? "@todo" line)

def alias? (line : Line) : Option (List Char) := do
  word? (← named? "@alias" line)

/-- An address and the caption given for it, if any. -/
def link? (line : Line) : Option (List Char × Option (List Char)) := do
  let (url, rest) ← run? (! isBlank ·) (← blanks? (← named? "@link" line))
  if rest = [] then
    return (url, none)
  else
    return (url, some (← words? rest))

end StyleDoc.Tag
