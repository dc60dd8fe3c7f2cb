import StyleDoc.Text.Blank

/-!
Steps for reading a line from the left. A step either fails or returns what it has read together
with the rest of the line. Runs are always read to their end, and the word or mark that follows a
run never starts with a character of it, so no step has to be taken back.
-/

namespace StyleDoc.Text

/-- What follows the given word. -/
def literal? : List Char → List Char → Option (List Char)
  | [], rest => some rest
  | _ :: _, [] => none
  | w :: word, c :: rest => if w = c then literal? word rest else none

/-- What follows at least one blank and all blanks after it. -/
def blanks? : List Char → Option (List Char)
  | [] => none
  | c :: rest => if isBlank c then some (dropBlanks rest) else none

/-- The longest run of characters of a class, which must not be empty, and what follows it. -/
def run? (accepts : Char → Bool) (text : List Char) : Option (List Char × List Char) :=
  match text.takeWhile accepts with
  | [] => none
  | run => some (run, text.dropWhile accepts)

/-- The text between an opening brace and the next closing one, and what follows. -/
def braced? : List Char → Option (List Char × List Char)
  | '{' :: rest =>
      match rest.dropWhile (· ≠ '}') with
      | [] => none
      | _ :: after => some (rest.takeWhile (· ≠ '}'), after)
  | _ => none

/-- A letter or digit of ASCII, a hyphen or an underscore. -/
def isNameChar (c : Char) : Bool :=
  c.isAlphanum || c == '-' || c == '_'

theorem literal?_eq_some_iff {word text rest : List Char} :
    literal? word text = some rest ↔ text = word ++ rest := by
  induction word generalizing text with
  | nil => simp [literal?, eq_comm]
  | cons w word ih =>
      cases text with
      | nil => simp [literal?]
      | cons c text =>
          by_cases h : w = c
          · subst h
            simp [literal?, ih]
          · simp [literal?, h, Ne.symm h]

end StyleDoc.Text
