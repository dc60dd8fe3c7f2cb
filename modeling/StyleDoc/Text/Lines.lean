/-!
Cutting a text into lines. A line ends at a line feed, which takes one carriage return before it
along; what follows the last line feed is a line only if it is not empty. The cut is made in two
steps: segments keep their terminator, so that their concatenation is the text, and each line is a
segment without it.
-/

namespace StyleDoc.Text

/-- Puts a character in front of a text that has been cut already. -/
def addToSegments (c : Char) : List (List Char) → List (List Char)
  | [] => [[c]]
  | segment :: segments =>
      if c = '\n' then [c] :: segment :: segments else (c :: segment) :: segments

/-- The text cut after every line feed. -/
def segments (text : List Char) : List (List Char) :=
  text.foldr addToSegments []

/-- A segment without its terminator, a line feed with or without a carriage return before it. -/
def dropTerminator (segment : List Char) : List Char :=
  match segment.reverse with
  | '\n' :: '\r' :: front => front.reverse
  | '\n' :: front => front.reverse
  | _ => segment

/-- The lines of a text. -/
def lines (text : List Char) : List (List Char) :=
  (segments text).map dropTerminator

/-- A text made of lines, each ended by a line feed. -/
def unlines (lines : List String) : String :=
  String.ofList (lines.flatMap fun line => line.toList ++ ['\n'])

theorem flatten_addToSegments (c : Char) (cut : List (List Char)) :
    (addToSegments c cut).flatten = c :: cut.flatten := by
  cases cut with
  | nil => rfl
  | cons segment rest => by_cases h : c = '\n' <;> simp [addToSegments, h]

/-- Nothing of the text is lost when it is cut. -/
theorem flatten_segments (text : List Char) : (segments text).flatten = text := by
  induction text with
  | nil => rfl
  | cons c rest ih =>
      change (addToSegments c (segments rest)).flatten = c :: rest
      rw [flatten_addToSegments, ih]

end StyleDoc.Text
