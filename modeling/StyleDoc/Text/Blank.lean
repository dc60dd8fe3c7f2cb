/-!
Two kinds of white space. Blanks are the six ASCII characters that separate the words of a
comment line. Spaces are all of Unicode's White_Space, and only the two ends of a text are ever
cleared of them, so a no-break space inside a line is an ordinary character.
-/

namespace StyleDoc.Text

/-- Space, tab, line feed, vertical tab, form feed or carriage return. -/
def isBlank (c : Char) : Bool :=
  c.toNat == 0x20 || (0x09 ≤ c.toNat && c.toNat ≤ 0x0D)

/-- A character with the Unicode property White_Space. -/
def isSpace (c : Char) : Bool :=
  isBlank c || c.toNat == 0x85 || c.toNat == 0xA0 || c.toNat == 0x1680 ||
    (0x2000 ≤ c.toNat && c.toNat ≤ 0x200A) || c.toNat == 0x2028 || c.toNat == 0x2029 ||
    c.toNat == 0x202F || c.toNat == 0x205F || c.toNat == 0x3000

theorem isSpace_of_isBlank {c : Char} (blank : isBlank c = true) : isSpace c = true := by
  simp [isSpace, blank]

/-- Spaces taken off the left end. -/
def trimLeft (text : List Char) : List Char :=
  text.dropWhile isSpace

/-- Spaces taken off the right end. -/
def trimRight (text : List Char) : List Char :=
  (text.reverse.dropWhile isSpace).reverse

/-- Spaces taken off both ends. -/
def trim (text : List Char) : List Char :=
  trimRight (trimLeft text)

/-- Blanks taken off the left end. -/
def dropBlanks (text : List Char) : List Char :=
  text.dropWhile isBlank

end StyleDoc.Text
