/-!
JSON values and their layout on the page: one member per line, two spaces for each level, and an
empty list on one line. Members of an object keep the order in which they are given.
-/

namespace StyleDoc

inductive Json where
  | null
  | bool (value : Bool)
  | string (text : String)
  | array (elements : List Json)
  | object (members : List (String × Json))
  deriving Repr, Inhabited

namespace Json

/-- A digit of a hexadecimal number, in lower case. -/
def hexDigit (n : Nat) : Char :=
  if n < 10 then Char.ofNat (0x30 + n) else Char.ofNat (0x57 + n)

/-- How a character is written inside quotes. Only quotes, backslashes and the characters below
the space need an escape, and seven of them have a short one. -/
def escapeChar (c : Char) : List Char :=
  if c = '"' then ['\\', '"']
  else if c = '\\' then ['\\', '\\']
  else if c = '\x08' then ['\\', 'b']
  else if c = '\x0c' then ['\\', 'f']
  else if c = '\n' then ['\\', 'n']
  else if c = '\r' then ['\\', 'r']
  else if c = '\t' then ['\\', 't']
  else if c.toNat < 0x20 then
    ['\\', 'u', '0', '0', hexDigit (c.toNat / 16), hexDigit (c.toNat % 16)]
  else [c]

def quoted (text : List Char) : List Char :=
  '"' :: text.flatMap escapeChar ++ ['"']

/-- The start of a line at the given level. -/
def newline (level : Nat) : List Char :=
  '\n' :: List.replicate (2 * level) ' '

mutual

/-- The text of a value that stands at the given level. -/
def print (level : Nat) : Json → List Char
  | .null => "null".toList
  | .bool true => "true".toList
  | .bool false => "false".toList
  | .string text => quoted text.toList
  | .array [] => "[]".toList
  | .array (first :: rest) =>
      '[' :: newline (level + 1) ++ print (level + 1) first ++ printElements (level + 1) rest ++
        newline level ++ [']']
  | .object [] => "\x7b\x7d".toList
  | .object (first :: rest) =>
      '{' :: newline (level + 1) ++ printMember (level + 1) first ++
        printMembers (level + 1) rest ++ newline level ++ ['}']

/-- The elements after the first one. -/
def printElements (level : Nat) : List Json → List Char
  | [] => []
  | element :: rest =>
      ',' :: newline level ++ print level element ++ printElements level rest

def printMember (level : Nat) : String × Json → List Char
  | (name, value) => quoted name.toList ++ ':' :: ' ' :: print level value

/-- The members after the first one. -/
def printMembers (level : Nat) : List (String × Json) → List Char
  | [] => []
  | member :: rest =>
      ',' :: newline level ++ printMember level member ++ printMembers level rest

end

end Json

end StyleDoc
