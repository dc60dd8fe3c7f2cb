import StyleDoc.Log.Event
import StyleDoc.Unicode.Alphanumeric

/-!
Which events are told. A filter is a list of directives, each with the beginning of a target and
the highest level that is told for it; the longest beginning decides, and among equal ones the last.
Events that no directive speaks about are not told.
-/

namespace StyleDoc.Log

/-- What is told for targets with a given beginning. A rank of zero tells nothing. -/
structure Directive where
  target : String
  rank : Nat
  deriving DecidableEq, Repr

abbrev Filter := List Directive

namespace Filter

/-- A filter that treats all targets alike. -/
def everything (level : Level) : Filter :=
  [{ target := "", rank := level.rank }]

/-- A word for a level, in any case, or its rank in digits. -/
def rank? (word : List Char) : Option Nat :=
  match String.ofList (word.map Char.toLower) with
  | "off" => some 0
  | "error" => some 1
  | "warn" => some 2
  | "info" => some 3
  | "debug" => some 4
  | "trace" => some 5
  | _ =>
      let digits :=
        match word with
        | '+' :: rest => rest
        | _ => word
      if digits ≠ [] && digits.all Char.isDigit then
        let n := digits.foldl (fun n c => 10 * n + (c.toNat - '0'.toNat)) 0
        if n ≤ Level.trace.rank then some n else none
      else none

/-- Reads a level, a target, or a target with its level after an equals sign. A target without a
level is told in full. -/
def directive? (piece : List Char) : Option Directive := do
  let first ← piece.head?
  if Unicode.isAlphanumeric first || ['-', ':', '_'].contains first then
    match piece.dropWhile (· ≠ '=') with
    | [] =>
        match rank? piece with
        | some rank => return { target := "", rank }
        | none => return { target := String.ofList piece, rank := Level.trace.rank }
    | _ :: level =>
        let target := String.ofList (piece.takeWhile (· ≠ '='))
        if level = [] then return { target, rank := Level.trace.rank }
        else return { target, rank := ← rank? level }
  else none

/-- Reads directives with commas between them. Without any, only errors are told. -/
def ofText? (text : String) : Option Filter := do
  let pieces := (text.toList.splitOn ',').filter (· ≠ [])
  let filter ← pieces.mapM directive?
  return if filter = [] then everything .error else filter

/-- The better of two directives for a target, the second one being given later. -/
def prefer (target : String) (best : Option Directive) (next : Directive) : Option Directive :=
  if next.target.toList.isPrefixOf target.toList then
    match best with
    | some old => if old.target.length ≤ next.target.length then some next else some old
    | none => some next
  else best

def tells (filter : Filter) (event : Event) : Bool :=
  match filter.foldl (prefer event.target) none with
  | some directive => event.level.rank ≤ directive.rank
  | none => false

/-- The filter of a run. A setting that cannot be read counts as none. -/
def choose (setting : Option String) (verbose : Bool) : Filter :=
  match setting.bind ofText? with
  | some filter => filter
  | none => everything (if verbose then .debug else .warn)

/-- The lines that are told. -/
def lines (filter : Filter) (events : List Event) : List String :=
  (events.filter filter.tells).map Event.line

end Filter

end StyleDoc.Log
