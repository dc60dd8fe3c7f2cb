/-!
Glob patterns. A question mark stands for one character, a star for any text, a class in brackets
for one character of a set, and two stars for any number of directories. A star may stand for a
leading dot, but never reaches across a slash, because a pattern is cut at its slashes before it is
used. The whole pattern has to be well formed, and so has each of its parts.
-/

namespace StyleDoc.Glob

/-- One element of a part of a pattern. -/
inductive Token where
  | char (c : Char)
  | anyChar
  | anyText
  | oneOf (negated : Bool) (ranges : List (Char × Char))
  | anyDirectories
  deriving DecidableEq, Repr

inductive Fault where
  | invalidRange
  | tooManyStars
  | doubleStarNotAlone
  deriving DecidableEq, Repr

def Fault.message : Fault → String
  | .invalidRange => "invalid range pattern"
  | .tooManyStars => "wildcards are either regular `*` or recursive `**`"
  | .doubleStarNotAlone => "recursive wildcards must form a single path component"

/-- What is wrong with a pattern, and at which of its characters, counted from zero. -/
structure Malformed where
  position : Nat
  fault : Fault
  deriving DecidableEq, Repr

def Malformed.message (error : Malformed) : String :=
  s!"Pattern syntax error near position {error.position}: {error.fault.message}"

/-- The contents of a class up to its closing bracket, which does not close when it comes first. -/
def class? : List Char → Option (List Char × List Char)
  | [] => none
  | c :: rest =>
      match rest.dropWhile (· ≠ ']') with
      | [] => none
      | _ :: after => some (c :: rest.takeWhile (· ≠ ']'), after)

/-- The ranges of a class; a character by itself is a range of one. -/
def ranges : List Char → List (Char × Char)
  | first :: '-' :: last :: rest => (first, last) :: ranges rest
  | c :: rest => (c, c) :: ranges rest
  | [] => []

/-- What follows an opening bracket, read as a class. -/
def bracketed? : List Char → Option (Token × List Char)
  | '!' :: rest => (class? rest).map fun (body, after) => (.oneOf true (ranges body), after)
  | rest => (class? rest).map fun (body, after) => (.oneOf false (ranges body), after)

/-- Reads a pattern whose first `position` characters, the last of them `before`, have been read
already. Every step consumes at least one character, so a fuel of the length is enough. -/
def tokensFrom : Nat → Nat → Option Char → List Char → Except Malformed (List Token)
  | 0, _, _, _ => .ok []
  | _, _, _, [] => .ok []
  | fuel + 1, position, before, c :: rest =>
      if c = '*' then
        let after := rest.dropWhile (· = '*')
        match (rest.takeWhile (· = '*')).length with
        | 0 => (.anyText :: ·) <$> tokensFrom fuel (position + 1) (some c) rest
        | 1 =>
            if before.all (· = '/') then
              match after with
              | [] => .ok [.anyDirectories]
              | '/' :: more =>
                  (.anyDirectories :: ·) <$> tokensFrom fuel (position + 3) (some '/') more
              | _ => .error { position := position + 2, fault := .doubleStarNotAlone }
            else
              .error { position := position - 1, fault := .doubleStarNotAlone }
        | _ => .error { position := position + 2, fault := .tooManyStars }
      else if c = '?' then
        (.anyChar :: ·) <$> tokensFrom fuel (position + 1) (some c) rest
      else if c = '[' then
        match bracketed? rest with
        | some (token, after) =>
            (token :: ·) <$>
              tokensFrom fuel (position + 1 + (rest.length - after.length)) (some ']') after
        | none => .error { position, fault := .invalidRange }
      else
        (.char c :: ·) <$> tokensFrom fuel (position + 1) (some c) rest

def tokens (pattern : List Char) : Except Malformed (List Token) :=
  tokensFrom pattern.length 0 none pattern

/-- Whether one character may stand for the token. -/
def Token.accepts : Token → Char → Bool
  | .char expected, c => c = expected
  | .anyChar, _ => true
  | .oneOf negated ranges, c =>
      (ranges.any fun (first, last) => first ≤ c && c ≤ last) != negated
  | .anyText, _ => false
  | .anyDirectories, _ => false

/-- Whether a name matches the tokens from its first to its last character. A star leaves any end
of the name to the tokens after it. -/
def matchesName : List Token → List Char → Bool
  | [], name => name.isEmpty
  | .anyText :: tokens, name =>
      (List.range (name.length + 1)).any fun n => matchesName tokens (name.drop n)
  | _ :: _, [] => false
  | token :: tokens, c :: name => token.accepts c && matchesName tokens name

/-- One step of the way that a pattern describes: a fixed name, the matching entries of a
directory, or the matching entries anywhere below it. -/
inductive Step where
  | name (text : String)
  | entries (tokens : List Token)
  | below (tokens : List Token)
  deriving DecidableEq, Repr

/-- A pattern as a way to walk. One that ends in a slash or in two stars finds directories only. -/
structure Pattern where
  absolute : Bool
  steps : List Step
  findsFiles : Bool
  deriving DecidableEq, Repr

/-- The one character that the token stands for. -/
def Token.char? : Token → Option Char
  | .char c => some c
  | _ => none

/-- The name that the tokens spell, if they match no other. -/
def fixedName? (tokens : List Token) : Option String :=
  (tokens.mapM Token.char?).map String.ofList

/-- The steps for the parts of a pattern; two stars go together with the part after them. The
first argument tells that they have been met. -/
def stepsOf : Bool → List (List Token) → List Step
  | _, [] => []
  | deep, part :: parts =>
      if part = [.anyDirectories] then stepsOf true parts
      else if deep then .below part :: stepsOf false parts
      else
        match fixedName? part with
        | some text => .name text :: stepsOf false parts
        | none => .entries part :: stepsOf false parts

/-- The parts of a pattern between its slashes. An empty part at the end does not count. -/
def splitParts (pattern : List Char) : List (List Char) :=
  let parts := pattern.splitOn '/'
  if parts.getLast? = some [] then parts.dropLast else parts

def Pattern.ofText (text : String) : Except Malformed Pattern := do
  let whole := text.toList
  let _ ← tokens whole
  let (absolute, relative) :=
    match whole with
    | '/' :: rest => (true, rest)
    | _ => (false, whole)
  let parts ← (splitParts relative).mapM tokens
  return { absolute
           steps := if parts = [] then [.name ""] else stepsOf false parts
           findsFiles := whole.getLast? ≠ some '/' && parts.getLast? ≠ some [.anyDirectories] }

end StyleDoc.Glob
