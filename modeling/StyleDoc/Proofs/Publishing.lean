import StyleDoc.Program
import StyleDoc.Proofs.Files.Directories
import StyleDoc.Proofs.Files.Expansion
import StyleDoc.Proofs.Progress

/-!
What a successful run leaves on the disk. Every input with something to document has a file of its
own directly inside the output directory, with the rendering of its own document and of nothing
else; every other file is the one that was there before.

The inputs are read one after the other from a disk that changes on the way. What makes the result
independent of that is that no output is an input: then every write leaves what the later inputs
lead to as it was, and the documents are those of the disk before the first write.
-/

namespace StyleDoc

namespace Publication

variable (settings : Settings)

/-- What the disk is like whenever the next input is read. -/
structure Ready (folder : Location) (disk : Disk) (inputs : List Path) : Prop where
  directory : disk.follow settings.directory = .ok folder
  folder : disk.get? folder = some .directory
  found : ∀ input ∈ inputs, ∃ target, disk.follow input = .ok target
  apart : OutputsApart settings disk inputs

section Loop

variable {settings} {folder : Location} {disk changed : Disk} {input : Path} {inputs : List Path}
  {written : List (Path × Path)} {shown : Document}

/-- A write leaves every other input as it was. -/
theorem document?_put (hready : Ready settings folder disk (input :: inputs))
    (hshown : document? settings disk input = some shown)
    (hplace : disk.get? (destination settings folder input) ≠ some .directory) (entry : Entry)
    {later : Path} (hlater : later ∈ inputs) :
    document? settings (disk.put (destination settings folder input) entry) later =
      document? settings disk later := by
  have hmem := List.mem_cons_of_mem input hlater
  obtain ⟨target, htarget⟩ := hready.found later hmem
  have hne : target ≠ destination settings folder input := by
    rintro rfl
    refine hready.apart input List.mem_cons_self (by rw [hshown]; rfl) later hmem ?_
    rw [htarget, follow_output settings hready.directory hready.folder]
  rw [document?, document?, Disk.lookup?_put entry hplace htarget hne]

theorem Ready.mono {some : List Path} (hready : Ready settings folder disk inputs)
    (hsome : some ⊆ inputs) : Ready settings folder disk some where
  directory := hready.directory
  folder := hready.folder
  found := fun later hlater => hready.found later (hsome hlater)
  apart := fun source hsource hshown later hlater =>
    hready.apart source (hsome hsource) hshown later (hsome hlater)

theorem Ready.tail (hready : Ready settings folder disk (input :: inputs)) :
    Ready settings folder disk inputs :=
  hready.mono (List.subset_cons_self input inputs)

theorem Ready.put (hready : Ready settings folder disk (input :: inputs))
    (hshown : document? settings disk input = some shown)
    (hplace : disk.get? (destination settings folder input) ≠ some .directory) (entry : Entry) :
    Ready settings folder (disk.put (destination settings folder input) entry) inputs := by
  have hkeeps := Disk.KeepsDirectories.put hplace entry
  have hdirectory := hkeeps.follow hready.directory
  have hfolder := hkeeps.directory folder hready.folder
  refine ⟨hdirectory, hfolder, fun later hlater => ?_, fun source hsource hsome later hlater => ?_⟩
  · obtain ⟨target, htarget⟩ := hready.tail.found later hlater
    exact ⟨target, hkeeps.follow htarget⟩
  · rw [document?_put hready hshown hplace entry hsource] at hsome
    have hapart := hready.tail.apart source hsource hsome later hlater
    obtain ⟨target, htarget⟩ := hready.tail.found later hlater
    rw [follow_output settings hdirectory hfolder, hkeeps.follow htarget]
    rwa [follow_output settings hready.directory hready.folder, htarget] at hapart

/-- An input that is passed leaves the disk ready for the next one, with the same documents. -/
theorem Pass.ready {before after : Progress} {events : List Log.Event}
    (hpass : Pass settings before input events after)
    (hready : Ready settings folder before.disk (input :: inputs)) :
    Ready settings folder after.disk inputs ∧ ∀ later ∈ inputs,
      document? settings after.disk later = document? settings before.disk later := by
  cases hpass with
  | skip hnone hevents => exact ⟨hready.tail, fun _ _ => rfl⟩
  | write hshown huntaken hwrite htold =>
      obtain ⟨hplace, rfl⟩ := write_output_eq_ok hready.directory hready.folder hwrite
      exact ⟨hready.put hshown hplace _, fun _ => document?_put hready hshown hplace _⟩

/-- What publishing inputs has made of a disk, when other outputs were written before. -/
structure Writes (settings : Settings) (folder : Location) (written : List (Path × Path))
    (disk : Disk) (inputs : List Path) (after : Disk) : Prop where
  keeps : Disk.KeepsDirectories disk after
  untaken : ∀ input ∈ inputs, (document? settings disk input).isSome →
    ∀ earlier ∈ written, earlier.1.same (output settings input) = false
  distinct : inputs.Pairwise fun input later =>
    (document? settings disk input).isSome → (document? settings disk later).isSome →
      fileName settings input ≠ fileName settings later
  documents : ∀ input ∈ inputs, ∀ shown, document? settings disk input = some shown →
    after.get? (destination settings folder input) =
      some (.file (settings.format.render shown).toUTF8)
  others : ∀ place, (∀ input ∈ inputs, (document? settings disk input).isSome →
    place ≠ destination settings folder input) → after.get? place = disk.get? place

theorem Writes.nil : Writes settings folder written disk [] disk where
  keeps := .refl disk
  untaken := by simp
  distinct := .nil
  documents := by simp
  others := fun _ _ => rfl

theorem Writes.of_undocumented {after : Disk} (hnone : document? settings disk input = none)
    (hwrites : Writes settings folder written disk inputs after) :
    Writes settings folder written disk (input :: inputs) after where
  keeps := hwrites.keeps
  untaken := List.forall_mem_cons.mpr ⟨by simp [hnone], hwrites.untaken⟩
  distinct := List.pairwise_cons.mpr ⟨by simp [hnone], hwrites.distinct⟩
  documents := List.forall_mem_cons.mpr ⟨by simp [hnone], hwrites.documents⟩
  others := fun place hplace => hwrites.others place (List.forall_mem_cons.mp hplace).2

theorem Writes.of_documented {after : Disk} (hready : Ready settings folder disk (input :: inputs))
    (hshown : document? settings disk input = some shown)
    (huntaken : written.find? (·.1.same (output settings input)) = none)
    (hplace : disk.get? (destination settings folder input) ≠ some .directory)
    (hchanged : changed = disk.put (destination settings folder input)
      (.file (settings.format.render shown).toUTF8))
    (hwrites : Writes settings folder ((output settings input, input) :: written) changed inputs
      after) :
    Writes settings folder written disk (input :: inputs) after := by
  have hlater : ∀ later ∈ inputs,
      document? settings changed later = document? settings disk later :=
    fun later hmem => hchanged ▸ document?_put hready hshown hplace _ hmem
  -- The output is among those that the later inputs must not take again.
  have hother : ∀ later ∈ inputs, (document? settings disk later).isSome →
      fileName settings input ≠ fileName settings later := by
    intro later hmem hsome
    rw [← hlater later hmem] at hsome
    have hdiffer := hwrites.untaken later hmem hsome (output settings input, input)
      List.mem_cons_self
    exact fileName_ne_of_not_same settings hdiffer
  refine ⟨?keeps, ?untaken, ?distinct, ?documents, ?others⟩
  case keeps =>
    exact (hchanged ▸ Disk.KeepsDirectories.put hplace _).trans hwrites.keeps
  case untaken =>
    refine List.forall_mem_cons.mpr ⟨fun _ earlier hearlier => ?_, fun later hmem hsome => ?_⟩
    · simpa using List.find?_eq_none.mp huntaken earlier hearlier
    · rw [← hlater later hmem] at hsome
      exact (List.forall_mem_cons.mp (hwrites.untaken later hmem hsome)).2
  case distinct =>
    refine List.pairwise_cons.mpr ⟨fun later hmem _ => hother later hmem, ?_⟩
    refine hwrites.distinct.imp_of_mem fun hfirst hsecond hdistinct => ?_
    rwa [hlater _ hfirst, hlater _ hsecond] at hdistinct
  case documents =>
    refine List.forall_mem_cons.mpr ⟨fun own hown => ?_, fun later hmem own hown => ?_⟩
    · obtain rfl := Option.some.inj (hshown.symm.trans hown)
      rw [hwrites.others, hchanged, Disk.get?_put_self]
      · simp [destination]
      · intro later hmem hsome
        rw [hlater later hmem] at hsome
        exact mt (destination_inj settings).mp (hother later hmem hsome)
    · exact hwrites.documents later hmem own ((hlater later hmem).trans hown)
  case others =>
    intro place hfree
    obtain ⟨hfirst, hrest⟩ := List.forall_mem_cons.mp hfree
    rw [hwrites.others, hchanged, Disk.get?_put_of_ne _ (hfirst (by rw [hshown]; rfl))]
    intro later hmem hsome
    rw [hlater later hmem] at hsome
    exact hrest later hmem hsome

/-- What is passed has been written, and nothing else. -/
theorem Passes.writes {before after : Progress} {events : List Log.Event}
    (hpasses : Passes settings before inputs events after)
    (hready : Ready settings folder before.disk inputs) :
    Writes settings folder before.written before.disk inputs after.disk := by
  induction hpasses with
  | nil => exact Writes.nil
  | cons hpass hpasses ih =>
      have hrest := ih (hpass.ready hready).1
      cases hpass with
      | skip hnone hevents => exact hrest.of_undocumented hnone
      | write hshown huntaken hwrite htold =>
          obtain ⟨hplace, hchanged⟩ := write_output_eq_ok hready.directory hready.folder hwrite
          exact .of_documented hready hshown huntaken hplace hchanged hrest

/-- Publishing that ends without failure has written every document and nothing else. -/
theorem publishFrom_writes (hready : Ready settings folder disk inputs)
    (hsuccess : (publishFrom settings written disk inputs).failure = none) :
    Writes settings folder written disk inputs (publishFrom settings written disk inputs).disk := by
  have hends : Ends settings { written, disk } inputs _ := publishFrom_ends _ inputs
  generalize publishFrom settings written disk inputs = outcome at hsuccess hends ⊢
  cases hends with
  | done hpasses => exact hpasses.writes hready
  | stopped => cases hsuccess

end Loop

/-- The disk that the inputs are read from: the output directory is there. -/
def prepared (disk : Disk) : Disk :=
  (disk.makeDirectories settings.directory).1

variable {settings} in
theorem exists_folder_of_prepared {disk : Disk}
    (hmade : (disk.makeDirectories settings.directory).2 = none) :
    ∃ folder, (prepared settings disk).follow settings.directory = .ok folder ∧
      (prepared settings disk).get? folder = some .directory :=
  Disk.isDirectory_iff.mp ((Disk.makeDirectories_makes disk settings.directory).found hmade)

variable {settings} in
theorem publish_of_unprepared {disk : Disk} {cause : FileError} (inputs : List String)
    (hmade : (disk.makeDirectories settings.directory).2 = some cause) :
    publish settings disk inputs =
      { disk := prepared settings disk, events := [],
        failure := some (.directoryNotMade settings.directory cause) } := by
  unfold publish prepared
  rcases hprepared : disk.makeDirectories settings.directory with ⟨made, failed⟩
  rw [hprepared] at hmade
  obtain rfl : failed = some cause := hmade
  rfl

variable {settings} in
theorem publish_of_prepared {disk : Disk} (inputs : List String)
    (hmade : (disk.makeDirectories settings.directory).2 = none) :
    publish settings disk inputs =
      let found := Inputs.expand (prepared settings disk) inputs
      match found.2 with
      | .error invalid =>
          { disk := prepared settings disk, events := found.1,
            failure := some (.invalidPattern invalid) }
      | .ok paths => (publishFrom settings [] (prepared settings disk) paths).after found.1 := by
  unfold publish prepared
  rcases hprepared : disk.makeDirectories settings.directory with ⟨made, failed⟩
  rw [hprepared] at hmade
  obtain rfl : failed = none := hmade
  dsimp only
  rcases Inputs.expand made inputs with ⟨events, invalid | paths⟩ <;> rfl

variable {settings} in
/-- Unless the directory cannot be made, valid inputs are published from the prepared disk. -/
theorem publish_of_expand {disk : Disk} {inputs : List String} {paths : List Path}
    (hpaths : (Inputs.expand (prepared settings disk) inputs).2 = .ok paths) :
    (∃ cause, publish settings disk inputs =
      { disk := prepared settings disk, events := [],
        failure := some (.directoryNotMade settings.directory cause) }) ∨
    ∃ folder events, (prepared settings disk).follow settings.directory = .ok folder ∧
      (prepared settings disk).get? folder = some .directory ∧ Log.outputs events = [] ∧
      publish settings disk inputs =
        (publishFrom settings [] (prepared settings disk) paths).after events := by
  cases hmade : (disk.makeDirectories settings.directory).2 with
  | some cause => exact Or.inl ⟨cause, publish_of_unprepared inputs hmade⟩
  | none =>
      obtain ⟨folder, hdirectory, hfolder⟩ := exists_folder_of_prepared hmade
      have hpublish := publish_of_prepared inputs hmade
      simp only [hpaths] at hpublish
      exact Or.inr ⟨folder, _, hdirectory, hfolder, Inputs.outputs_expand _ inputs, hpublish⟩

variable {settings} in
/-- Whatever publishing meets, all that it does to the prepared disk is to write outputs of the
expanded inputs, each of them once. -/
theorem publish_traced (disk : Disk) (inputs : List String) :
    ∃ writes, Traced settings (prepared settings disk)
      ((Inputs.expand (prepared settings disk) inputs).2.toOption.getD [])
      (publish settings disk inputs) writes := by
  have hexpand := Inputs.outputs_expand (prepared settings disk) inputs
  cases hmade : (disk.makeDirectories settings.directory).2 with
  | some cause =>
      rw [publish_of_unprepared inputs hmade]
      exact ⟨[], rfl, rfl, .nil, [], List.nil_sublist _, rfl⟩
  | none =>
      rw [publish_of_prepared inputs hmade]
      dsimp only
      cases (Inputs.expand (prepared settings disk) inputs).2 with
      | error invalid => exact ⟨[], rfl, hexpand.symm, .nil, [], .slnil, rfl⟩
      | ok paths =>
          obtain ⟨writes, htraced⟩ : ∃ writes, Traced settings _ paths _ writes :=
            publishFrom_traced (prepared settings disk) paths
          refine ⟨writes, htraced.written, ?_, htraced.distinct, htraced.sources⟩
          rw [htraced.told]
          exact ((Log.outputs_append _ _).trans (hexpand ▸ List.nil_append _)).symm

/-- The disk after inputs were published, by the disk before and the one with the output directory
that the inputs were read from. -/
structure Published (before prepared after : Disk) (inputs : List Path) (folder : Location) :
    Prop where
  prepares : Disk.AddsDirectories before prepared
  directory : after.follow settings.directory = .ok folder ∧ after.get? folder = some .directory
  titles : ∀ input ∈ inputs, IsTitle input.stem (title input)
  inside : ∀ input ∈ inputs, '/' ∉ (fileName settings input).toList ∧
    after.follow (output settings input) = .ok (folder ++ [fileName settings input])
  distinct : inputs.Pairwise fun input later =>
    (document? settings prepared input).isSome → (document? settings prepared later).isSome →
      fileName settings input ≠ fileName settings later
  files : ∀ place content, after.get? place = some (.file content) ↔
    (∃ input ∈ inputs, ∃ shown, document? settings prepared input = some shown ∧
      place = folder ++ [fileName settings input] ∧
      content = (settings.format.render shown).toUTF8) ∨
    (before.get? place = some (.file content) ∧
      ∀ input ∈ inputs, (document? settings prepared input).isSome →
        place ≠ folder ++ [fileName settings input])

variable {settings} in
theorem Writes.published {before prepared after : Disk} {inputs : List Path} {folder : Location}
    (hadds : Disk.AddsDirectories before prepared) (hready : Ready settings folder prepared inputs)
    (hwrites : Writes settings folder [] prepared inputs after) :
    Published settings before prepared after inputs folder where
  prepares := hadds
  directory := ⟨hwrites.keeps.follow hready.directory, hwrites.keeps.directory _ hready.folder⟩
  titles := fun input _ => title_isTitle input
  inside := fun input _ => ⟨slash_not_mem_fileName settings input, hwrites.keeps.follow
    (follow_output settings hready.directory hready.folder input)⟩
  distinct := hwrites.distinct
  files := by
    intro place content
    constructor
    · intro hfile
      by_cases hfree : ∀ input ∈ inputs, (document? settings prepared input).isSome →
          place ≠ destination settings folder input
      · rw [hwrites.others place hfree, hadds.get?_eq_file_iff] at hfile
        exact Or.inr ⟨hfile, hfree⟩
      · push Not at hfree
        obtain ⟨input, hinput, hsome, rfl⟩ := hfree
        obtain ⟨shown, hshown⟩ := Option.isSome_iff_exists.mp hsome
        have hdocument := hwrites.documents input hinput shown hshown
        rw [hfile] at hdocument
        exact Or.inl ⟨input, hinput, shown, hshown, rfl,
          Entry.file.inj (Option.some.inj hdocument)⟩
    · rintro (⟨input, hinput, shown, hshown, rfl, rfl⟩ | ⟨hfile, hfree⟩)
      · exact hwrites.documents input hinput shown hshown
      · rw [hwrites.others place hfree, hadds.get?_eq_file_iff]
        exact hfile

variable {settings} in
theorem Published.lookup?_output {before prepared after : Disk} {inputs : List Path}
    {folder : Location} {input : Path} {shown : Document}
    (hpublished : Published settings before prepared after inputs folder) (hinput : input ∈ inputs)
    (hshown : document? settings prepared input = some shown) :
    after.lookup? (output settings input) = some (.file (settings.format.render shown).toUTF8) := by
  rw [Disk.lookup?, (hpublished.inside input hinput).2]
  exact (hpublished.files _ _).mpr (Or.inl ⟨input, hinput, shown, hshown, rfl, rfl⟩)

variable {settings} in
theorem ready_of_expand {disk : Disk} {folder : Location} {inputs : List String}
    {paths : List Path} (hdirectory : disk.follow settings.directory = .ok folder)
    (hfolder : disk.get? folder = some .directory)
    (hpaths : (Inputs.expand disk inputs).2 = .ok paths)
    (hapart : OutputsApart settings disk paths) : Ready settings folder disk paths where
  directory := hdirectory
  folder := hfolder
  found := fun input hinput =>
    Disk.exists_follow_of_isFile (Inputs.isFile_of_mem_expand hpaths input hinput)
  apart := hapart

variable {settings} in
theorem publish_published {disk : Disk} {inputs : List String}
    (hsuccess : (publish settings disk inputs).failure = none)
    (hapart : ∀ paths, (Inputs.expand (prepared settings disk) inputs).2 = .ok paths →
      OutputsApart settings (prepared settings disk) paths) :
    ∃ paths folder, (Inputs.expand (prepared settings disk) inputs).2 = .ok paths ∧
      Published settings disk (prepared settings disk) (publish settings disk inputs).disk paths
        folder := by
  have hadds := (Disk.makeDirectories_makes disk settings.directory).adds
  cases hmade : (disk.makeDirectories settings.directory).2 with
  | some cause =>
      rw [publish_of_unprepared inputs hmade] at hsuccess
      cases hsuccess
  | none =>
      obtain ⟨folder, hdirectory, hfolder⟩ := exists_folder_of_prepared hmade
      rw [publish_of_prepared inputs hmade] at hsuccess ⊢
      dsimp only at hsuccess ⊢
      split at hsuccess
      · cases hsuccess
      · rename_i paths hpaths
        have hready := ready_of_expand hdirectory hfolder hpaths (hapart paths hpaths)
        have hwrites := publishFrom_writes hready hsuccess
        exact ⟨paths, folder, hpaths, hwrites.published hadds hready⟩

end Publication

namespace Program

open Publication

/-- How a run publishes what its options ask for. -/
def settings (options : Options) (directory : String) (format : Format) : Settings :=
  { directory := { text := directory }, format, showPrivate := options.showPrivate }

theorem effect_of_inputs {options : Options} (surroundings : Surroundings) {directory : String}
    {format : Format} (hinputs : options.inputs ≠ []) (houtput : options.output = some directory)
    (hformat : Format.ofName options.format = .ok format) :
    effect options surroundings =
      let outcome := Publication.publish (settings options directory format) surroundings.disk
        options.inputs
      { disk := outcome.disk, output := "", events := outcome.events,
        failure := outcome.failure } := by
  rw [effect, if_neg hinputs, publish, houtput]
  simp only [hformat]
  rfl

/-- A run on files that ends with status zero has written the documents of its inputs and nothing
else, provided that none of its outputs is itself an input. -/
theorem run_published {options : Options} {surroundings : Surroundings} {directory : String}
    {format : Format} (hinputs : options.inputs ≠ []) (houtput : options.output = some directory)
    (hformat : Format.ofName options.format = .ok format)
    (hsuccess : (run options surroundings).code = 0)
    (hapart : ∀ paths,
      (Inputs.expand (prepared (settings options directory format) surroundings.disk)
        options.inputs).2 = .ok paths →
      OutputsApart (settings options directory format)
        (prepared (settings options directory format) surroundings.disk) paths) :
    ∃ paths folder,
      (Inputs.expand (prepared (settings options directory format) surroundings.disk)
        options.inputs).2 = .ok paths ∧
      Published (settings options directory format) surroundings.disk
        (prepared (settings options directory format) surroundings.disk)
        (run options surroundings).disk paths folder := by
  have heffect := effect_of_inputs surroundings hinputs houtput hformat
  have hnone : (Publication.publish (settings options directory format) surroundings.disk
      options.inputs).failure = none := by
    simpa [run, heffect] using hsuccess
  have hdisk : (run options surroundings).disk = (Publication.publish
      (settings options directory format) surroundings.disk options.inputs).disk := by
    simp only [run, heffect]
  rw [hdisk]
  exact publish_published hnone hapart

/-- A run that finds nothing but the given files. -/
def holding (files : List (Location × ByteArray)) : Surroundings where
  disk := files.foldl (fun disk file => disk.putWithParents file.1 (.file file.2)) (.empty [])
  input := .empty
  logSetting := none

/-- Three stylesheets of which only one is a text with something to document. -/
def library : Disk :=
  let stylesheet (disk : Disk) (file : String × ByteArray) : Disk :=
    disk.put ["scss", file.1] (.file file.2)
  [("_math.scss", "/// Doubles.\n@function double($n);\n".toUTF8),
    ("notes.scss", "$gap: 1px;\n".toUTF8), ("raw.scss", ⟨#[255]⟩)].foldl stylesheet
      ((Disk.empty []).put ["scss"] .directory)

def libraryOptions : Options :=
  { inputs := ["scss"], output := some "out", format := "md" }

def librarySurroundings : Surroundings :=
  { disk := library, input := ⟨#[]⟩, logSetting := none }

theorem run_published_library :
    (run libraryOptions librarySurroundings).code = 0 ∧ ∃ paths folder,
      (Inputs.expand (prepared (settings libraryOptions "out" .markdown) librarySurroundings.disk)
        libraryOptions.inputs).2 = .ok paths ∧
      Published (settings libraryOptions "out" .markdown) librarySurroundings.disk
        (prepared (settings libraryOptions "out" .markdown) librarySurroundings.disk)
        (run libraryOptions librarySurroundings).disk paths folder := by
  have hsuccess : (run libraryOptions librarySurroundings).code = 0 := by decide +kernel
  refine ⟨hsuccess, run_published (by decide) rfl rfl hsuccess fun paths hpaths => ?_⟩
  have hexpand : (Inputs.expand
      (prepared (settings libraryOptions "out" .markdown) librarySurroundings.disk)
      libraryOptions.inputs).2 =
        .ok [⟨"scss/_math.scss"⟩, ⟨"scss/notes.scss"⟩, ⟨"scss/raw.scss"⟩] := by
    decide +kernel
  obtain rfl := Except.ok.inj (hexpand.symm.trans hpaths)
  unfold OutputsApart
  decide +kernel

end Program

end StyleDoc
