import StyleDoc.Format
import StyleDoc.Inputs

/-!
Writing the documentation of files into a directory. The inputs are taken one after the other, and
each of them is read from the disk as the ones before have left it. Publishing stops at the first
output that an earlier input has taken or that cannot be written; what has been written until then
remains.
-/

namespace StyleDoc

/-- Why a run ends without success. -/
inductive Failure where
  | inputNotText
  | outputNotGiven
  | unknownFormat (error : Format.Unknown)
  | directoryNotMade (path : Path) (cause : FileError)
  | invalidPattern (invalid : Inputs.Invalid)
  | sameOutput (earlier later output : Path)
  | notWritten (output : Path) (cause : FileError)
  deriving DecidableEq, Repr

namespace Failure

def message : Failure → String
  | .inputNotText => "failed to read stdin"
  | .outputNotGiven => "--output is required when files are given"
  | .unknownFormat error => error.message
  | .directoryNotMade path _ => s!"failed to create output directory: {path.text}"
  | .invalidPattern invalid => s!"invalid glob pattern: {invalid.pattern}"
  | .sameOutput earlier later output =>
      s!"{earlier.text} and {later.text} both map to {output.text}"
  | .notWritten output _ => s!"failed to write {output.text}"

def cause? : Failure → Option String
  | .inputNotText => some FileError.notText.message
  | .directoryNotMade _ cause | .notWritten _ cause => some cause.message
  | .invalidPattern invalid => some invalid.error.message
  | .outputNotGiven | .unknownFormat _ | .sameOutput .. => none

/-- The text that a run ends with. -/
def report (failure : Failure) : String :=
  match failure.cause? with
  | some cause => s!"Error: {failure.message}\n\nCaused by:\n    {cause}\n"
  | none => s!"Error: {failure.message}\n"

end Failure

namespace Publication

/-- The title of the document of a file: its stem, without the underscore that marks a partial
stylesheet unless nothing else is left. -/
def title (input : Path) : String :=
  match input.stem.toList with
  | '_' :: c :: rest => String.ofList (c :: rest)
  | _ => input.stem

/-- How documents are published. -/
structure Settings where
  directory : Path
  format : Format
  showPrivate : Bool
  deriving DecidableEq, Repr

/-- The path that the documentation of an input is written to. -/
def output (settings : Settings) (input : Path) : Path :=
  settings.directory.join s!"{title input}.{settings.format.extension}"

/-- The disk after publishing, what is told about it and why it has failed, if it has. -/
structure Outcome where
  disk : Disk
  events : List Log.Event
  failure : Option Failure

/-- An outcome before which something else was told. -/
def Outcome.after (events : List Log.Event) (outcome : Outcome) : Outcome :=
  { outcome with events := events ++ outcome.events }

/-- The document of an input that has been read. -/
def document (settings : Settings) (input : Path) (parts : List Section) : Document :=
  { title := title input
    items := Item.visible settings.showPrivate (parts.map Section.item) }

/-- Publishes inputs in the given order. The outputs written before, each with its input, are
given. -/
def publishFrom (settings : Settings) :
    List (Path × Path) → Disk → List Path → Outcome
  | _, disk, [] => { disk, events := [], failure := none }
  | written, disk, input :: inputs =>
      match disk.read input with
      | .error cause => (publishFrom settings written disk inputs).after [.skipped input cause]
      | .ok content =>
          let parts := Stylesheet.sections content
          let document := document settings input parts
          let told := Log.ofSections parts
          if document.items = [] then
            (publishFrom settings written disk inputs).after (told ++ [.nothingDocumented input])
          else
            let output := output settings input
            match written.find? (·.1.same output) with
            | some (_, earlier) =>
                { disk, events := told, failure := some (.sameOutput earlier input output) }
            | none =>
                match disk.write output (settings.format.render document) with
                | .error cause =>
                    { disk, events := told, failure := some (.notWritten output cause) }
                | .ok changed =>
                    (publishFrom settings ((output, input) :: written) changed inputs).after
                      (told ++ [.wrote output])

/-- Publishes the files that the inputs stand for. The directory is made first, also when a pattern
turns out to be invalid. -/
def publish (settings : Settings) (disk : Disk) (inputs : List String) : Outcome :=
  match disk.makeDirectories settings.directory with
  | (disk, some cause) =>
      { disk, events := [], failure := some (.directoryNotMade settings.directory cause) }
  | (disk, none) =>
      match Inputs.expand disk inputs with
      | (events, .error invalid) =>
          { disk, events, failure := some (.invalidPattern invalid) }
      | (events, .ok paths) => (publishFrom settings [] disk paths).after events

end Publication

end StyleDoc
