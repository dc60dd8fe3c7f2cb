import StyleDoc.Log.Filter
import StyleDoc.Options
import StyleDoc.Publication

/-!
A run of the program. Without inputs it documents the text of standard input on standard output;
with inputs it publishes files into the output directory.
-/

namespace StyleDoc.Program

/-- What a run finds when it starts. The log setting is the text that overrides the options. -/
structure Surroundings where
  disk : Disk
  input : ByteArray
  logSetting : Option String

/-- What a run does before the log is filtered. -/
structure Effect where
  disk : Disk
  output : String
  events : List Log.Event
  failure : Option Failure

/-- What a run leaves behind. -/
structure Result where
  code : Nat
  output : String
  errors : String
  disk : Disk

/-- Documents one text. -/
def document (options : Options) (disk : Disk) (input : ByteArray) : Effect :=
  match String.fromUTF8? input with
  | none => { disk, output := "", events := [], failure := some .inputNotText }
  | some content =>
      let parts := Stylesheet.sections content
      let events := Log.ofSections parts
      match Format.ofName options.format with
      | .error error => { disk, output := "", events, failure := some (.unknownFormat error) }
      | .ok format =>
          let items := Item.visible options.showPrivate (parts.map Section.item)
          { disk, output := format.render { items }, events, failure := none }

/-- Publishes files. The options are checked before the disk is touched. -/
def publish (options : Options) (disk : Disk) : Effect :=
  match options.output with
  | none => { disk, output := "", events := [], failure := some .outputNotGiven }
  | some directory =>
      match Format.ofName options.format with
      | .error error => { disk, output := "", events := [], failure := some (.unknownFormat error) }
      | .ok format =>
          let settings : Publication.Settings :=
            { directory := { text := directory }, format, showPrivate := options.showPrivate }
          let outcome := Publication.publish settings disk options.inputs
          { disk := outcome.disk, output := "", events := outcome.events, failure := outcome.failure }

def effect (options : Options) (surroundings : Surroundings) : Effect :=
  if options.inputs = [] then document options surroundings.disk surroundings.input
  else publish options surroundings.disk

def run (options : Options) (surroundings : Surroundings) : Result :=
  let effect := effect options surroundings
  let filter := Log.Filter.choose surroundings.logSetting options.verbose
  let report := (effect.failure.map Failure.report).getD ""
  { code := if effect.failure.isSome then 1 else 0
    output := effect.output
    errors := Text.unlines (filter.lines effect.events) ++ report
    disk := effect.disk }

end StyleDoc.Program
