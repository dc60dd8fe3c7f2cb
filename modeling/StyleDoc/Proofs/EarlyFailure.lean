import StyleDoc.Proofs.Files.Making
import StyleDoc.Proofs.Publishing

/-!
What a run leaves behind that fails before it has published anything. The options are looked at
before the disk is touched, and every pattern is read before the first file is written; so a run that
fails on its options leaves the disk as it was, and one that fails on the output directory or on a
pattern leaves nothing behind but directories on the way to the output directory. No run that fails
has printed anything.
-/

namespace StyleDoc

namespace Inputs

/-- An input that is neither a file nor a directory, nor a well-formed pattern. -/
def IsMalformed (disk : Disk) (input : String) : Prop :=
  disk.isFile { text := input } = false ∧ disk.isDirectory { text := input } = false ∧
    ∃ error, Glob.Pattern.ofText input = .error error

theorem not_isValid_iff {disk : Disk} {input : String} :
    ¬ IsValid disk input ↔ IsMalformed disk input := by
  unfold IsValid IsMalformed find
  dsimp only
  split
  · rename_i hfile
    simp [hfile]
  · rename_i hfile
    split
    · rename_i hdirectory
      simp [hdirectory]
    · rename_i hdirectory
      cases hpattern : Glob.Pattern.ofText input <;> simp [hfile, hdirectory]

/-- Some input is malformed exactly when the inputs cannot be expanded. -/
theorem exists_isMalformed_iff (disk : Disk) (inputs : List String) :
    (∃ input ∈ inputs, IsMalformed disk input) ↔
      ∃ invalid, (expand disk inputs).2 = .error invalid := by
  have hvalid := exists_expand_iff disk inputs
  simp only [← not_isValid_iff]
  cases hexpand : (expand disk inputs).2 with
  | ok paths =>
      have hall := hvalid.mp ⟨paths, hexpand⟩
      simpa using hall
  | error invalid =>
      rw [hexpand] at hvalid
      simpa using hvalid

end Inputs

namespace Publication

variable {settings : Settings}

/-- Publishing only adds directories on the way to its own before it looks at the first input. -/
theorem prepared_addsOnWay (disk : Disk) :
    Disk.AddsOnWay settings.directory.components disk (prepared settings disk) :=
  Disk.makeDirectories_addsOnWay disk settings.directory

/-- Once inputs are published, it is no longer the directory or a pattern that makes it fail. -/
theorem publishFrom_failure {written : List (Path × Path)} {disk : Disk} {inputs : List Path}
    {failure : Failure} (hfailure : (publishFrom settings written disk inputs).failure = some failure) :
    (∀ path cause, failure ≠ .directoryNotMade path cause) ∧
      ∀ invalid, failure ≠ .invalidPattern invalid := by
  have hends : Ends settings { written, disk } inputs _ := publishFrom_ends _ inputs
  generalize publishFrom settings written disk inputs = outcome at hfailure hends
  cases hends with
  | done => cases hfailure
  | stopped hinputs hpasses hstop htold =>
      obtain rfl := Option.some.inj hfailure
      cases hstop <;> exact ⟨fun _ _ => nofun, fun _ => nofun⟩

theorem publish_directoryNotMade_iff (disk : Disk) (inputs : List String) :
    (∃ path cause, (publish settings disk inputs).failure =
        some (.directoryNotMade path cause)) ↔
      ∃ cause, (disk.makeDirectories settings.directory).2 = some cause := by
  cases hmade : (disk.makeDirectories settings.directory).2 with
  | some cause =>
      rw [publish_of_unprepared inputs hmade]
      exact ⟨fun _ => ⟨cause, rfl⟩, fun _ => ⟨_, _, rfl⟩⟩
  | none =>
      rw [publish_of_prepared inputs hmade]
      dsimp only
      cases hexpand : (Inputs.expand (prepared settings disk) inputs).2 with
      | error invalid => simp
      | ok paths =>
          refine ⟨fun ⟨path, cause, hfailure⟩ => ?_, fun ⟨_, hcause⟩ => nomatch hcause⟩
          exact absurd rfl ((publishFrom_failure hfailure).1 path cause)

theorem publish_invalidPattern_iff (disk : Disk) (inputs : List String) :
    (∃ invalid, (publish settings disk inputs).failure = some (.invalidPattern invalid)) ↔
      (disk.makeDirectories settings.directory).2 = none ∧
        ∃ input ∈ inputs, Inputs.IsMalformed (prepared settings disk) input := by
  rw [Inputs.exists_isMalformed_iff]
  cases hmade : (disk.makeDirectories settings.directory).2 with
  | some cause =>
      rw [publish_of_unprepared inputs hmade]
      simp
  | none =>
      rw [publish_of_prepared inputs hmade]
      dsimp only
      cases hexpand : (Inputs.expand (prepared settings disk) inputs).2 with
      | error invalid => simp
      | ok paths =>
          refine ⟨fun ⟨invalid, hfailure⟩ => ?_, fun ⟨_, _, hinvalid⟩ => nomatch hinvalid⟩
          exact absurd rfl ((publishFrom_failure hfailure).2 invalid)

/-- A failure of the directory or of a pattern comes before any file is written. -/
theorem publish_addsOnWay {disk : Disk} {inputs : List String}
    (hearly : (∃ path cause, (publish settings disk inputs).failure =
        some (.directoryNotMade path cause)) ∨
      ∃ invalid, (publish settings disk inputs).failure = some (.invalidPattern invalid)) :
    Disk.AddsOnWay settings.directory.components disk (publish settings disk inputs).disk := by
  rw [publish_directoryNotMade_iff, publish_invalidPattern_iff, Inputs.exists_isMalformed_iff]
    at hearly
  obtain ⟨cause, hmade⟩ | ⟨hmade, invalid, hinvalid⟩ := hearly
  · rw [publish_of_unprepared inputs hmade]
    exact prepared_addsOnWay disk
  · rw [publish_of_prepared inputs hmade]
    simp only [hinvalid]
    exact prepared_addsOnWay disk

end Publication

namespace Program

open Publication

/-- What the failures of a run leave behind that come before anything is published, and when they
come. -/
structure FailsEarly (options : Options) (surroundings : Surroundings) : Prop where
  silent : (run options surroundings).code = 1 → (run options surroundings).output = ""
  text : options.inputs = [] → (run options surroundings).disk = surroundings.disk
  unchecked : options.inputs ≠ [] →
    options.output = none ∨ (∃ error, Format.ofName options.format = .error error) →
      (run options surroundings).code = 1 ∧ (run options surroundings).disk = surroundings.disk
  directory : ∀ directory format, options.inputs ≠ [] → options.output = some directory →
    Format.ofName options.format = .ok format →
      ((∃ path cause, (effect options surroundings).failure =
          some (.directoryNotMade path cause)) ↔
        ∃ cause, (surroundings.disk.makeDirectories { text := directory }).2 = some cause)
  pattern : ∀ directory format, options.inputs ≠ [] → options.output = some directory →
    Format.ofName options.format = .ok format →
      ((∃ invalid, (effect options surroundings).failure = some (.invalidPattern invalid)) ↔
        (surroundings.disk.makeDirectories { text := directory }).2 = none ∧
          ∃ input ∈ options.inputs, Inputs.IsMalformed
            (prepared (settings options directory format) surroundings.disk) input)
  spared : ∀ directory, options.output = some directory →
    (∃ path cause, (effect options surroundings).failure =
        some (.directoryNotMade path cause)) ∨
      (∃ invalid, (effect options surroundings).failure = some (.invalidPattern invalid)) →
    (run options surroundings).code = 1 ∧
      Disk.AddsOnWay (Path.components { text := directory }) surroundings.disk
        (run options surroundings).disk

theorem run_code (options : Options) (surroundings : Surroundings) :
    (run options surroundings).code =
      if (effect options surroundings).failure.isSome then 1 else 0 := rfl

theorem run_disk (options : Options) (surroundings : Surroundings) :
    (run options surroundings).disk = (effect options surroundings).disk := rfl

theorem run_output (options : Options) (surroundings : Surroundings) :
    (run options surroundings).output = (effect options surroundings).output := rfl

theorem effect_of_text {options : Options} (surroundings : Surroundings)
    (hinputs : options.inputs = []) :
    effect options surroundings = document options surroundings.disk surroundings.input :=
  if_pos hinputs

theorem effect_of_files {options : Options} (surroundings : Surroundings)
    (hinputs : options.inputs ≠ []) :
    effect options surroundings = publish options surroundings.disk :=
  if_neg hinputs

theorem document_disk (options : Options) (disk : Disk) (input : ByteArray) :
    (document options disk input).disk = disk := by
  unfold document
  split
  · rfl
  · dsimp only
    split <;> rfl

/-- A text that cannot be documented prints nothing. -/
theorem output_document_of_failure {options : Options} {disk : Disk} {input : ByteArray}
    {failure : Failure} (hfailure : (document options disk input).failure = some failure) :
    (document options disk input).output = "" := by
  unfold document at hfailure ⊢
  split at hfailure
  · rfl
  · dsimp only at hfailure ⊢
    split at hfailure
    · rfl
    · cases hfailure

theorem publish_of_unchecked {options : Options} (disk : Disk)
    (hunchecked : options.output = none ∨ ∃ error, Format.ofName options.format = .error error) :
    (publish options disk).failure.isSome = true ∧ (publish options disk).disk = disk := by
  unfold publish
  split
  · exact ⟨rfl, rfl⟩
  · rename_i directory hdirectory
    split
    · exact ⟨rfl, rfl⟩
    · rename_i format hformat
      simp [hdirectory, hformat] at hunchecked

theorem output_publish (options : Options) (disk : Disk) : (publish options disk).output = "" := by
  unfold publish
  split
  · rfl
  · split <;> rfl

/-- Whatever makes a run fail, it has printed nothing: a page of a text is printed only once nothing
can fail any more. -/
theorem output_of_failure {options : Options} {surroundings : Surroundings} {failure : Failure}
    (hfailure : (effect options surroundings).failure = some failure) :
    (effect options surroundings).output = "" := by
  by_cases hinputs : options.inputs = []
  · rw [effect_of_text surroundings hinputs] at hfailure ⊢
    exact output_document_of_failure hfailure
  · rw [effect_of_files surroundings hinputs]
    exact output_publish options surroundings.disk

/-- A run that fails on the output directory or on a pattern, whichever of its options are wrong,
leaves nothing behind but directories on the way to the output directory. -/
theorem effect_addsOnWay {options : Options} {surroundings : Surroundings} {directory : String}
    (houtput : options.output = some directory)
    (hearly : (∃ path cause, (effect options surroundings).failure =
        some (.directoryNotMade path cause)) ∨
      ∃ invalid, (effect options surroundings).failure = some (.invalidPattern invalid)) :
    Disk.AddsOnWay (Path.components { text := directory }) surroundings.disk
      (effect options surroundings).disk := by
  by_cases hinputs : options.inputs = []
  · rw [effect_of_text surroundings hinputs, document_disk]
    exact .refl surroundings.disk
  · cases hformat : Format.ofName options.format with
    | error error =>
        have hunchecked := publish_of_unchecked surroundings.disk (.inr ⟨error, hformat⟩)
        rw [effect_of_files surroundings hinputs, hunchecked.2]
        exact .refl surroundings.disk
    | ok format =>
        rw [effect_of_inputs surroundings hinputs houtput hformat] at hearly ⊢
        exact publish_addsOnWay hearly

/-- A run that fails early has printed nothing and written nothing. -/
theorem run_fails_early (options : Options) (surroundings : Surroundings) :
    FailsEarly options surroundings := by
  refine ⟨?silent, ?text, ?unchecked, ?directory, ?pattern, ?spared⟩
  case silent =>
    intro hcode
    rw [run_output]
    cases hfailure : (effect options surroundings).failure with
    | none => simp [run_code, hfailure] at hcode
    | some failure => exact output_of_failure hfailure
  case text =>
    intro hinputs
    rw [run_disk, effect_of_text surroundings hinputs]
    exact document_disk options surroundings.disk surroundings.input
  case unchecked =>
    intro hinputs hunchecked
    obtain ⟨hfailure, hdisk⟩ := publish_of_unchecked surroundings.disk hunchecked
    rw [run_code, run_disk, effect_of_files surroundings hinputs, if_pos hfailure]
    exact ⟨rfl, hdisk⟩
  case directory =>
    intro directory format hinputs houtput hformat
    rw [effect_of_inputs surroundings hinputs houtput hformat]
    exact publish_directoryNotMade_iff surroundings.disk options.inputs
  case pattern =>
    intro directory format hinputs houtput hformat
    rw [effect_of_inputs surroundings hinputs houtput hformat]
    exact publish_invalidPattern_iff surroundings.disk options.inputs
  case spared =>
    intro directory houtput hearly
    refine ⟨?_, by rw [run_disk]; exact effect_addsOnWay houtput hearly⟩
    rcases hearly with ⟨path, cause, hfailure⟩ | ⟨invalid, hfailure⟩
    · rw [run_code, hfailure]
      rfl
    · rw [run_code, hfailure]
      rfl

/-- A malformed pattern after a directory of stylesheets: nothing but the output directory is new. -/
example :
    (run { inputs := ["scss", "["], output := some "out/api" } librarySurroundings).code = 1 ∧
      Disk.added library
        (run { inputs := ["scss", "["], output := some "out/api" } librarySurroundings).disk =
          [(["out", "api"], .directory), (["out"], .directory)] := by
  decide +kernel

end Program

end StyleDoc
