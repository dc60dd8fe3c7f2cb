import StyleDoc.Json.Value

/-!
The standard grammar of JSON texts and what a text stands for. A relation takes what is left to
read, what is read from it and what is left afterwards. Blanks are only read between tokens, so a
value never starts or ends with one.
-/

namespace StyleDoc

namespace Json

/-- What a text stands for. A number stays as it is written. -/
inductive Datum where
  | null
  | bool (value : Bool)
  | number (literal : List Char)
  | string (text : String)
  | array (elements : List Datum)
  | object (members : List (String × Datum))

def IsBlank (c : Char) : Prop :=
  c ∈ [' ', '\t', '\n', '\r']

instance (c : Char) : Decidable (IsBlank c) :=
  inferInstanceAs (Decidable (c ∈ [' ', '\t', '\n', '\r']))

/-- Any number of blanks between two tokens. -/
def Gap (input rest : List Char) : Prop :=
  ∃ blanks : List Char, (∀ c ∈ blanks, IsBlank c) ∧ input = blanks ++ rest

def IsDigits (digits : List Char) : Prop :=
  digits ≠ [] ∧ ∀ c ∈ digits, '0' ≤ c ∧ c ≤ '9'

/-- A number without superfluous zeros in front, with an optional fraction and exponent. -/
def IsNumber (literal : List Char) : Prop :=
  ∃ minus whole fraction exponent : List Char,
    literal = minus ++ whole ++ fraction ++ exponent ∧
      (minus = [] ∨ minus = ['-']) ∧
      IsDigits whole ∧ (whole.head? = some '0' → whole = ['0']) ∧
      (fraction = [] ∨ ∃ digits, IsDigits digits ∧ fraction = '.' :: digits) ∧
      (exponent = [] ∨ ∃ mark sign digits,
        (mark = 'e' ∨ mark = 'E') ∧ (sign = [] ∨ sign = ['+'] ∨ sign = ['-']) ∧
          IsDigits digits ∧ exponent = mark :: sign ++ digits)

/-- The letters that may follow a backslash, with the characters they stand for. -/
def shortEscapes : List (Char × Char) :=
  [('"', '"'), ('\\', '\\'), ('/', '/'), ('b', '\x08'), ('f', '\x0c'), ('n', '\n'), ('r', '\r'),
    ('t', '\t')]

def hexValue? (c : Char) : Option Nat :=
  if '0' ≤ c ∧ c ≤ '9' then some (c.toNat - 0x30)
  else if 'a' ≤ c ∧ c ≤ 'f' then some (c.toNat - 0x57)
  else if 'A' ≤ c ∧ c ≤ 'F' then some (c.toNat - 0x37)
  else none

/-- The number of four hexadecimal digits. -/
def codeUnit? (a b c d : Char) : Option Nat := do
  let a ← hexValue? a
  let b ← hexValue? b
  let c ← hexValue? c
  let d ← hexValue? d
  return ((a * 16 + b) * 16 + c) * 16 + d

/-- The characters of a string up to its closing quote, and what they stand for. Two escapes may
form a surrogate pair. A surrogate on its own stands for no character. -/
inductive Characters : List Char → List Char → List Char → Prop where
  | close (rest : List Char) : Characters ('"' :: rest) [] rest
  | plain {char : Char} {input text rest : List Char}
      (hchar : 0x20 ≤ char.toNat) (hquote : char ≠ '"') (hslash : char ≠ '\\')
      (htext : Characters input text rest) : Characters (char :: input) (char :: text) rest
  | short {mark char : Char} {input text rest : List Char}
      (hmark : (mark, char) ∈ shortEscapes)
      (htext : Characters input text rest) :
      Characters ('\\' :: mark :: input) (char :: text) rest
  | unit {a b c d : Char} {unit : Nat} {input text rest : List Char}
      (hunit : codeUnit? a b c d = some unit) (hrange : unit < 0xD800 ∨ 0xE000 ≤ unit)
      (htext : Characters input text rest) :
      Characters ('\\' :: 'u' :: a :: b :: c :: d :: input) (Char.ofNat unit :: text) rest
  | pair {a b c d a' b' c' d' : Char} {high low : Nat} {input text rest : List Char}
      (hhigh : codeUnit? a b c d = some high) (hhighRange : 0xD800 ≤ high ∧ high < 0xDC00)
      (hlow : codeUnit? a' b' c' d' = some low) (hlowRange : 0xDC00 ≤ low ∧ low < 0xE000)
      (htext : Characters input text rest) :
      Characters
        ('\\' :: 'u' :: a :: b :: c :: d :: '\\' :: 'u' :: a' :: b' :: c' :: d' :: input)
        (Char.ofNat (0x10000 + (high - 0xD800) * 0x400 + (low - 0xDC00)) :: text) rest

/-- One or more entries with commas between them, up to the mark that closes the list. -/
inductive Listed {α : Type} (Entry : List Char → α → List Char → Prop) (close : Char) :
    List Char → List α → List Char → Prop where
  | last {input after rest : List Char} {entry : α}
      (hentry : Entry input entry after) (hclose : Gap after (close :: rest)) :
      Listed Entry close input [entry] rest
  | more {input after comma next rest : List Char} {entry : α} {entries : List α}
      (hentry : Entry input entry after) (hcomma : Gap after (',' :: comma))
      (hnext : Gap comma next) (hentries : Listed Entry close next entries rest) :
      Listed Entry close input (entry :: entries) rest

/-- A list between its marks, which may have no entries. -/
inductive Enclosed {α : Type} (Entry : List Char → α → List Char → Prop) (opening close : Char) :
    List Char → List α → List Char → Prop where
  | empty {input rest : List Char} (hclose : Gap input (close :: rest)) :
      Enclosed Entry opening close (opening :: input) [] rest
  | listed {input first rest : List Char} {entries : List α}
      (hopen : Gap input first) (hentries : Listed Entry close first entries rest) :
      Enclosed Entry opening close (opening :: input) entries rest

/-- A quoted name and, after a colon, its value. -/
inductive Member {α : Type} (Entry : List Char → α → List Char → Prop) :
    List Char → String × α → List Char → Prop where
  | intro {input after colon next rest name : List Char} {entry : α}
      (hname : Characters input name after) (hcolon : Gap after (':' :: colon))
      (hnext : Gap colon next) (hentry : Entry next entry rest) :
      Member Entry ('"' :: input) (String.ofList name, entry) rest

inductive Value : List Char → Datum → List Char → Prop where
  | null (rest : List Char) : Value ('n' :: 'u' :: 'l' :: 'l' :: rest) .null rest
  | true (rest : List Char) : Value ('t' :: 'r' :: 'u' :: 'e' :: rest) (.bool true) rest
  | false (rest : List Char) : Value ('f' :: 'a' :: 'l' :: 's' :: 'e' :: rest) (.bool false) rest
  | number {input literal rest : List Char}
      (hliteral : IsNumber literal) (hinput : input = literal ++ rest) :
      Value input (.number literal) rest
  | string {input text rest : List Char} (htext : Characters input text rest) :
      Value ('"' :: input) (.string (String.ofList text)) rest
  | array {input rest : List Char} {elements : List Datum}
      (helements : Enclosed Value '[' ']' ('[' :: input) elements rest) :
      Value ('[' :: input) (.array elements) rest
  | object {input rest : List Char} {members : List (String × Datum)}
      (hmembers : Enclosed (Member Value) '{' '}' ('{' :: input) members rest) :
      Value ('{' :: input) (.object members) rest

/-- The text of one value, with nothing around it but blanks. -/
def IsText (input : List Char) (value : Datum) : Prop :=
  ∃ start stop, Gap input start ∧ Value start value stop ∧ Gap stop []

end Json

end StyleDoc
