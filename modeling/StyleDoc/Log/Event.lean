import StyleDoc.Files.Disk
import StyleDoc.Stylesheet

/-!
Events worth telling about a run. Each has a level, and a target that names the part of the program
it comes from; its line shows the level and the message.
-/

namespace StyleDoc.Log

inductive Level where
  | error
  | warn
  | info
  | debug
  | trace
  deriving DecidableEq, Repr

/-- Higher levels tell more. -/
def Level.rank : Level → Nat
  | .error => 1
  | .warn => 2
  | .info => 3
  | .debug => 4
  | .trace => 5

/-- The name of a level, in five columns. -/
def Level.label : Level → String
  | .error => "ERROR"
  | .warn => " WARN"
  | .info => " INFO"
  | .debug => "DEBUG"
  | .trace => "TRACE"

inductive Event where
  | located (line : Nat) (comments : Nat)
  | documented (kind : Kind) (name : String) (line : Nat)
  | nothingDocumented (input : Path)
  | wrote (output : Path)
  | skipped (input : Path) (cause : FileError)
  | nothingMatched (pattern : String)
  deriving DecidableEq, Repr

namespace Event

def level : Event → Level
  | .located .. => .trace
  | .documented .. | .nothingDocumented .. | .wrote .. => .debug
  | .skipped .. | .nothingMatched .. => .warn

def target : Event → String
  | .located .. => "scssdoc::parser::block"
  | .documented .. => "scssdoc::parser"
  | _ => "scssdoc"

/-- Lines are counted from zero where a block is located and from one where an item is named. -/
def message : Event → String
  | .located line comments => s!"located comment block index={line} lines={comments}"
  | .documented kind name line =>
      s!"documented declaration kind={kind.keyword} name=\"{name}\" line={line + 1}"
  | .nothingDocumented input => s!"no documented items in {input.text}"
  | .wrote output => s!"wrote {output.text}"
  | .skipped input cause => s!"skipping {input.text}: {cause.message}"
  | .nothingMatched pattern => s!"no files matched: {pattern}"

def line (event : Event) : String :=
  s!"{event.level.label} {event.message}"

end Event

/-- The events of reading a stylesheet: each declaration is told after its comment block. -/
def ofSections (parts : List Section) : List Event :=
  parts.flatMap fun part =>
    [.located part.line part.comments.length,
     .documented part.declaration.kind part.declaration.name part.line]

end StyleDoc.Log
