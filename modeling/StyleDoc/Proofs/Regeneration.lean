import StyleDoc.Proofs.EarlyFailure
import StyleDoc.Proofs.Files.Shape
import StyleDoc.Proofs.InputOrder
import StyleDoc.Proofs.Overwriting
import StyleDoc.Proofs.Repetition

/-!
Running the same command line once more. The second run finds the disk as the first one has left it,
with the output directory made and documents in it. These are never taken for stylesheets, so inputs
that were there stand for the same paths as before; as no output is an input, the paths have the same
documents as before; and a document that is written where it stands already changes nothing. Whatever
the first run stopped at is met again.
-/

namespace StyleDoc

namespace Disk

theorem isFile_or_isDirectory_of_contains {disk : Disk} {path : Path}
    (hpath : disk.contains path = true) :
    disk.isFile path = true ∨ disk.isDirectory path = true := by
  rw [contains] at hpath
  rw [isFile_eq_shape, isDirectory_eq_shape]
  rcases hfound : disk.lookup? path with _ | _ | _
  · rw [hfound] at hpath
    cases hpath
  · exact Or.inr rfl
  · exact Or.inl rfl

theorem AddsDirectories.contains {disk other : Disk} (hadds : AddsDirectories disk other)
    {path : Path} (hpath : disk.contains path = true) : other.contains path = true := by
  unfold Disk.contains Disk.lookup? at hpath ⊢
  cases hfollow : disk.follow path with
  | error error =>
      rw [hfollow] at hpath
      cases hpath
  | ok place =>
      rw [hfollow] at hpath
      obtain ⟨entry, hentry⟩ := Option.isSome_iff_exists.mp hpath
      rw [hadds.keepsDirectories.follow hfollow]
      exact Option.isSome_iff_exists.mpr ⟨entry, hadds.kept place entry hentry⟩

theorem not_isFile_of_isDirectory {disk : Disk} {path : Path}
    (hdirectory : disk.isDirectory path = true) : disk.isFile path = false := by
  rw [isDirectory_eq_shape, beq_iff_eq] at hdirectory
  rw [isFile_eq_shape, hdirectory]
  rfl

end Disk

namespace Inputs

theorem find_of_isDirectory {disk : Disk} {input : String}
    (hdirectory : disk.isDirectory { text := input } = true) :
    find disk input = .ok (inDirectory disk { text := input }, []) := by
  rw [find]
  dsimp only
  rw [Disk.not_isFile_of_isDirectory hdirectory, if_neg Bool.false_ne_true, if_pos hdirectory]

theorem finds_iff_of_isDirectory {disk : Disk} {input : String}
    (hdirectory : disk.isDirectory { text := input } = true)
    (components : List Path.Component) :
    Finds disk input components ↔
      ∃ path ∈ inDirectory disk { text := input }, path.components = components := by
  rw [Finds, find_of_isDirectory hdirectory]
  simp

/-- What is there is never taken for a pattern. -/
theorem isValid_of_contains {disk : Disk} {input : String}
    (hinput : disk.contains { text := input } = true) : IsValid disk input := by
  rcases Disk.isFile_or_isDirectory_of_contains hinput with hfile | hdirectory
  · exact ⟨_, _, find_of_isFile hfile⟩
  · exact ⟨_, _, find_of_isDirectory hdirectory⟩

end Inputs

namespace Publication

variable {settings : Settings} {folder : Location} {disk other after : Disk} {input : Path}
  {front inputs : List Path} {written : List (Path × Path)}

/-- The directories are the same, the files are still there, and whatever has changed is a document
in the output directory. -/
structure GainsDocuments (settings : Settings) (folder : Location) (disk other : Disk) : Prop where
  here : other.here = disk.here
  directory : ∀ place, other.get? place = some .directory ↔ disk.get? place = some .directory
  file : ∀ place bytes, disk.get? place = some (.file bytes) →
    ∃ changed, other.get? place = some (.file changed)
  others : ∀ place, (∀ source, place ≠ destination settings folder source) →
    other.get? place = disk.get? place

theorem Writes.gains (hwrites : Writes settings folder written disk front after) :
    GainsDocuments settings folder disk after := by
  have hplaces (place : Location) : after.get? place = disk.get? place ∨
      ∃ content, after.get? place = some (.file content) := by
    by_cases hfree : ∀ input ∈ front, (document? settings disk input).isSome →
        place ≠ destination settings folder input
    · exact Or.inl (hwrites.others place hfree)
    · push Not at hfree
      obtain ⟨input, hinput, hsome, rfl⟩ := hfree
      obtain ⟨shown, hshown⟩ := Option.isSome_iff_exists.mp hsome
      exact Or.inr ⟨_, hwrites.documents input hinput shown hshown⟩
  refine ⟨hwrites.keeps.here, fun place => ⟨fun hplace => ?_, hwrites.keeps.directory place⟩,
    fun place bytes hfile => ?_, fun place hplace => ?_⟩
  · rcases hplaces place with hsame | ⟨content, hfile⟩
    · exact hsame ▸ hplace
    · rw [hfile] at hplace
      cases hplace
  · rcases hplaces place with hsame | hchanged
    · exact ⟨bytes, hsame.trans hfile⟩
    · exact hchanged
  · exact hwrites.others place fun input _ _ => hplace input

/-- As no output is an input, every input still has the document that it had. -/
theorem Writes.document?_eq (hready : Ready settings folder disk inputs) (hfront : front ⊆ inputs)
    (hwrites : Writes settings folder written disk front after) (hinput : input ∈ inputs) :
    document? settings after input = document? settings disk input := by
  obtain ⟨target, htarget⟩ := hready.found input hinput
  have hsame : after.get? target = disk.get? target := by
    refine hwrites.others target ?_
    rintro source hsource hsome rfl
    refine hready.apart source (hfront hsource) hsome input hinput ?_
    rw [htarget, follow_output settings hready.directory hready.folder]
  rw [document?, document?, Disk.lookup?, Disk.lookup?, hwrites.keeps.follow htarget, htarget]
  simp only [hsame]

theorem document?_agrees (hagrees : Disk.Agrees disk other) (input : Path) :
    document? settings other input = document? settings disk input := by
  rw [document?, document?, hagrees.lookup? input]

/-- Wherever publishing stops, what it has done to the disk is to write documents. -/
theorem exists_writes_of_ready (hready : Ready settings folder disk inputs)
    (written : List (Path × Path)) :
    ∃ front, front ⊆ inputs ∧
      Writes settings folder written disk front (publishFrom settings written disk inputs).disk := by
  obtain ⟨front, told, after, hfront, hpasses, hdisk, -⟩ : ∃ front told after, front <+: inputs ∧
      Passes settings { written, disk } front told after ∧ _ :=
    publishFrom_passes _ inputs
  exact ⟨front, hfront.subset, hdisk ▸ hpasses.writes (hready.mono hfront.subset)⟩

/-- Publishing once more from where it has ended writes what is there already and ends alike. -/
theorem publishFrom_again (hready : Ready settings folder disk inputs)
    (hagrees : Disk.Agrees (publishFrom settings written disk inputs).disk other) :
    Disk.Agrees (publishFrom settings written disk inputs).disk
        (publishFrom settings written other inputs).disk ∧
      (publishFrom settings written other inputs).failure.isSome =
        (publishFrom settings written disk inputs).failure.isSome := by
  induction inputs generalizing disk other written with
  | nil => exact ⟨hagrees, rfl⟩
  | cons input inputs ih =>
      obtain ⟨front, hfront, hwrites⟩ := exists_writes_of_ready hready written
      have hdocument : document? settings other input = document? settings disk input := by
        rw [document?_agrees hagrees]
        exact hwrites.document?_eq hready hfront List.mem_cons_self
      have hplace : (publishFrom settings written disk (input :: inputs)).disk.follow
            settings.directory = .ok folder :=
        hwrites.keeps.follow hready.directory
      cases hshown : document? settings disk input with
      | none =>
          obtain ⟨events, -, heq⟩ := publishFrom_of_undocumented hshown
          obtain ⟨told, -, hother⟩ := publishFrom_of_undocumented (hdocument.trans hshown)
          rw [heq] at hagrees ⊢
          rw [hother]
          exact ih hready.tail hagrees
      | some shown =>
          obtain ⟨events, -, heq⟩ := publishFrom_of_documented hshown
          obtain ⟨told, -, hother⟩ := publishFrom_of_documented (hdocument.trans hshown)
          have hdirectory : other.follow settings.directory = .ok folder := by
            rw [hagrees.sameShape.follow, hplace]
          have hfolder : other.get? folder = some .directory := by
            rw [hagrees.get?]
            exact hwrites.keeps.directory folder hready.folder
          rw [hother, write_output_eq settings hdirectory hfolder]
          rw [heq, write_output_eq settings hready.directory hready.folder] at hagrees ⊢
          cases hfound : written.find? (·.1.same (output settings input)) with
          | some found =>
              rw [hfound] at hagrees
              exact ⟨hagrees, rfl⟩
          | none =>
              rw [hfound] at hagrees
              dsimp only at hagrees ⊢
              by_cases hblocked : disk.get? (destination settings folder input) = some .directory
              · rw [if_pos hblocked] at hagrees ⊢
                rw [if_pos ((hagrees.get? _).trans hblocked)]
                exact ⟨hagrees, rfl⟩
              · rw [if_neg hblocked] at hagrees ⊢
                change Disk.Agrees (publishFrom _ _ _ _).disk other at hagrees
                have hput := hready.put hshown hblocked
                  (.file (settings.format.render shown).toUTF8)
                have hentry := get?_publishFrom_put hready.directory hready.folder hblocked
                  (.file (settings.format.render shown).toUTF8) written inputs
                have hfree : other.get? (destination settings folder input) ≠ some .directory := by
                  rw [hagrees.get?, hentry]
                  exact nofun
                rw [if_neg hfree]
                exact ih hput (hagrees.put_of_get? hentry)

namespace GainsDocuments

variable (hgains : GainsDocuments settings folder disk other)

include hgains

theorem keepsDirectories : Disk.KeepsDirectories disk other :=
  ⟨hgains.here, fun place => (hgains.directory place).mpr⟩

/-- Paths lead to where they led, because the directories are the same. -/
theorem follow_eq_ok_iff {path : Path} {place : Location} :
    other.follow path = .ok place ↔ disk.follow path = .ok place := by
  have hback : Disk.KeepsDirectories other disk :=
    ⟨hgains.here.symm, fun place => (hgains.directory place).mp⟩
  exact ⟨hback.follow, hgains.keepsDirectories.follow⟩

theorem isDirectory_iff {path : Path} :
    other.isDirectory path = true ↔ disk.isDirectory path = true := by
  simp only [Disk.isDirectory_iff, hgains.follow_eq_ok_iff, hgains.directory]

theorem isFile_of_isFile {path : Path} (hfile : disk.isFile path = true) :
    other.isFile path = true := by
  obtain ⟨place, bytes, hfollow, hplace⟩ := Disk.isFile_iff.mp hfile
  obtain ⟨changed, hchanged⟩ := hgains.file place bytes hplace
  exact Disk.isFile_iff.mpr ⟨place, changed, hgains.follow_eq_ok_iff.mpr hfollow, hchanged⟩

variable (hdirectory : disk.follow settings.directory = .ok folder)
  (hfolder : disk.get? folder = some .directory)

include hdirectory hfolder

/-- Whatever is named like a stylesheet is the same as before. -/
theorem get?_of_isStylesheet {path : Path} {place : Location}
    (hfollow : disk.follow path = .ok place) (hstylesheet : Inputs.isStylesheet path = true) :
    other.get? place = disk.get? place := by
  refine hgains.others place fun source hplace => ?_
  have houtput := follow_output settings hdirectory hfolder source
  rw [← hplace] at houtput
  have hnot := isStylesheet_of_follow_output settings hdirectory hfolder hfollow houtput
  rw [hnot] at hstylesheet
  cases hstylesheet

theorem isFile_iff_of_isStylesheet {path : Path} (hstylesheet : Inputs.isStylesheet path = true) :
    other.isFile path = true ↔ disk.isFile path = true := by
  refine ⟨fun hfile => ?_, hgains.isFile_of_isFile⟩
  obtain ⟨place, bytes, hfollow, hplace⟩ := Disk.isFile_iff.mp hfile
  rw [hgains.follow_eq_ok_iff] at hfollow
  rw [hgains.get?_of_isStylesheet hdirectory hfolder hfollow hstylesheet] at hplace
  exact Disk.isFile_iff.mpr ⟨place, bytes, hfollow, hplace⟩

theorem get?_of_isStylesheet_join {directory : Path} {place : Location} {name : String}
    (hfollow : disk.follow directory = .ok place)
    (hstylesheet : Inputs.isStylesheet (directory.join name) = true) :
    other.get? (place ++ [name]) = disk.get? (place ++ [name]) := by
  by_cases hplace : ∃ source, place ++ [name] = destination settings folder source
  · obtain ⟨source, hplace⟩ := hplace
    obtain ⟨rfl, hname⟩ := List.append_inj' hplace rfl
    obtain rfl : name = fileName settings source := List.singleton_inj.mp hname
    apply hgains.get?_of_isStylesheet hdirectory hfolder _ hstylesheet
    exact Disk.follow_join hfollow hfolder (slash_not_mem_fileName settings source)
      (fileName_ne_special settings source)
  · push Not at hplace
    exact hgains.others _ hplace

/-- A directory holds the same stylesheets as before. -/
theorem mem_inDirectory_iff {directory path : Path} :
    path ∈ Inputs.inDirectory other directory ↔ path ∈ Inputs.inDirectory disk directory := by
  simp only [Inputs.inDirectory, List.mem_filter, List.mem_map, Bool.and_eq_true,
    Disk.mem_children_iff, hgains.follow_eq_ok_iff]
  constructor
  · rintro ⟨⟨name, ⟨place, hfollow, hname⟩, rfl⟩, hfile, hstylesheet⟩
    rw [hgains.isFile_iff_of_isStylesheet hdirectory hfolder hstylesheet] at hfile
    rw [hgains.get?_of_isStylesheet_join hdirectory hfolder hfollow hstylesheet] at hname
    exact ⟨⟨name, ⟨place, hfollow, hname⟩, rfl⟩, hfile, hstylesheet⟩
  · rintro ⟨⟨name, ⟨place, hfollow, hname⟩, rfl⟩, hfile, hstylesheet⟩
    rw [← hgains.isFile_iff_of_isStylesheet hdirectory hfolder hstylesheet] at hfile
    rw [← hgains.get?_of_isStylesheet_join hdirectory hfolder hfollow hstylesheet] at hname
    exact ⟨⟨name, ⟨place, hfollow, hname⟩, rfl⟩, hfile, hstylesheet⟩

/-- An input that was there is valid and finds what it has found. -/
theorem finds_iff {input : String} (hinput : disk.contains { text := input } = true)
    (components : List Path.Component) :
    Inputs.Finds other input components ↔ Inputs.Finds disk input components := by
  rcases Disk.isFile_or_isDirectory_of_contains hinput with hfile | hplace
  · rw [Inputs.finds_iff_of_isFile hfile,
      Inputs.finds_iff_of_isFile (hgains.isFile_of_isFile hfile)]
  · rw [Inputs.finds_iff_of_isDirectory hplace,
      Inputs.finds_iff_of_isDirectory (hgains.isDirectory_iff.mpr hplace)]
    simp only [hgains.mem_inDirectory_iff hdirectory hfolder]

omit hdirectory hfolder in
theorem isValid {input : String} (hinput : disk.contains { text := input } = true) :
    Inputs.IsValid other input := by
  rcases Disk.isFile_or_isDirectory_of_contains hinput with hfile | hplace
  · exact ⟨_, _, Inputs.find_of_isFile (hgains.isFile_of_isFile hfile)⟩
  · exact ⟨_, _, Inputs.find_of_isDirectory (hgains.isDirectory_iff.mpr hplace)⟩

/-- Inputs that were there are expanded to the same paths, up to spelling. -/
theorem exists_expand {inputs : List String} {paths : List Path}
    (hinputs : ∀ input ∈ inputs, disk.contains { text := input } = true)
    (hpaths : (Inputs.expand disk inputs).2 = .ok paths) :
    ∃ found, (Inputs.expand other inputs).2 = .ok found ∧
      found.map Path.components = paths.map Path.components := by
  obtain ⟨found, hfound⟩ := (Inputs.exists_expand_iff other inputs).mpr
    fun input hinput => hgains.isValid (hinputs input hinput)
  refine ⟨found, hfound, Inputs.components_eq_of_expand hfound hpaths fun components => ?_⟩
  refine exists_congr fun input => and_congr_right fun hinput => ?_
  exact hgains.finds_iff hdirectory hfolder (hinputs input hinput) components

end GainsDocuments

/-- With the output directory there, all that publishing does is to publish what it finds. -/
theorem publish_of_isDirectory {inputs : List String} {paths : List Path}
    (hdirectory : disk.isDirectory settings.directory = true)
    (hpaths : (Inputs.expand disk inputs).2 = .ok paths) :
    publish settings disk inputs =
      (publishFrom settings [] disk paths).after (Inputs.expand disk inputs).1 := by
  have hmade := Disk.makeDirectories_of_isDirectory hdirectory
  have hpublish := publish_of_prepared inputs (congrArg Prod.snd hmade)
  rw [prepared, hmade] at hpublish
  simp only [hpaths] at hpublish
  exact hpublish

/-- A directory that could not be made cannot be made the next time. -/
theorem publish_again_of_unprepared {cause : FileError} (inputs : List String)
    (hmade : (disk.makeDirectories settings.directory).2 = some cause) :
    ∃ again, publish settings (prepared settings disk) inputs =
      { disk := prepared settings disk, events := [],
        failure := some (.directoryNotMade settings.directory again) } := by
  obtain ⟨hsettled, hagain⟩ := Disk.makeDirectories_settles settings.directory disk
  rw [hmade] at hagain
  obtain ⟨again, hagain⟩ := Option.isSome_iff_exists.mp hagain
  refine ⟨again, ?_⟩
  have hpublish := publish_of_unprepared inputs hagain
  rwa [prepared, hsettled] at hpublish

/-- With documents gained, the same inputs are published as the paths that they stood for before. -/
theorem GainsDocuments.publish_alike (hgains : GainsDocuments settings folder disk other)
    (hdirectory : disk.follow settings.directory = .ok folder)
    (hfolder : disk.get? folder = some .directory) {inputs : List String} {paths : List Path}
    (hinputs : ∀ input ∈ inputs, disk.contains { text := input } = true)
    (hpaths : (Inputs.expand disk inputs).2 = .ok paths) :
    (publish settings other inputs).disk = (publishFrom settings [] other paths).disk ∧
      (publish settings other inputs).failure.isSome =
        (publishFrom settings [] other paths).failure.isSome := by
  have hkeeps := hgains.keepsDirectories
  obtain ⟨found, hfound, hcomponents⟩ :=
    hgains.exists_expand hdirectory hfolder hinputs hpaths
  have halike : Alike (publishFrom settings [] other found)
      (publishFrom settings [] other paths) := by
    refine publishFrom_alike hcomponents (fun path hpath => ?_) (fun path hpath => ?_) rfl
    · exact Disk.exists_follow_of_isFile (Inputs.isFile_of_mem_expand hfound path hpath)
    · obtain ⟨place, hplace⟩ :=
        Disk.exists_follow_of_isFile (Inputs.isFile_of_mem_expand hpaths path hpath)
      exact ⟨place, hkeeps.follow hplace⟩
  rw [publish_of_isDirectory (Disk.isDirectory_iff.mpr
    ⟨folder, hkeeps.follow hdirectory, hkeeps.directory folder hfolder⟩) hfound]
  exact ⟨halike.disk, halike.failure⟩

/-- Publishing once more what was there before leaves every place as it is and ends alike. -/
theorem publish_again {inputs : List String}
    (hinputs : ∀ input ∈ inputs, disk.contains { text := input } = true)
    (hapart : ∀ paths, (Inputs.expand (prepared settings disk) inputs).2 = .ok paths →
      OutputsApart settings (prepared settings disk) paths) :
    Disk.Agrees (publish settings disk inputs).disk
        (publish settings (publish settings disk inputs).disk inputs).disk ∧
      (publish settings (publish settings disk inputs).disk inputs).failure.isSome =
        (publish settings disk inputs).failure.isSome := by
  have hadds := (Disk.makeDirectories_makes disk settings.directory).adds
  have hthere : ∀ input ∈ inputs, (prepared settings disk).contains { text := input } = true :=
    fun input hinput => hadds.contains (hinputs input hinput)
  obtain ⟨paths, hpaths⟩ := (Inputs.exists_expand_iff (prepared settings disk) inputs).mpr
    fun input hinput => Inputs.isValid_of_contains (hthere input hinput)
  cases hmade : (disk.makeDirectories settings.directory).2 with
  | some cause =>
      obtain ⟨again, hagain⟩ := publish_again_of_unprepared inputs hmade
      rw [publish_of_unprepared inputs hmade]
      dsimp only
      rw [hagain]
      exact ⟨.refl _, rfl⟩
  | none =>
      obtain ⟨folder, hdirectory, hfolder⟩ := exists_folder_of_prepared hmade
      have hready := ready_of_expand hdirectory hfolder hpaths (hapart paths hpaths)
      obtain ⟨front, -, hwrites⟩ := exists_writes_of_ready hready []
      obtain ⟨hdisk, hfailure⟩ :=
        hwrites.gains.publish_alike hdirectory hfolder hthere hpaths
      have hpublish := publish_of_prepared inputs hmade
      simp only [hpaths] at hpublish
      rw [hpublish]
      dsimp only [Outcome.after]
      rw [hdisk, hfailure]
      exact publishFrom_again hready (.refl (publishFrom settings [] _ paths).disk)

end Publication

namespace Program

open Publication

/-- A run that is made once more, on what it has left, ends with the same status and leaves every
place as it is, provided that its inputs were there and that none of its outputs is itself an
input. -/
theorem run_again {options : Options} {surroundings : Surroundings}
    (hinputs : options.inputs ≠ [])
    (hthere : ∀ input ∈ options.inputs, surroundings.disk.contains { text := input } = true)
    (hapart : ∀ directory format paths, options.output = some directory →
      Format.ofName options.format = .ok format →
      (Inputs.expand (prepared (settings options directory format) surroundings.disk)
        options.inputs).2 = .ok paths →
      OutputsApart (settings options directory format)
        (prepared (settings options directory format) surroundings.disk) paths) :
    let first := run options surroundings
    let second := run options { surroundings with disk := first.disk }
    second.code = first.code ∧ Disk.Agrees first.disk second.disk := by
  intro first second
  let again : Surroundings := { surroundings with disk := (effect options surroundings).disk }
  suffices halike : Disk.Agrees (effect options surroundings).disk (effect options again).disk ∧
      (effect options again).failure.isSome = (effect options surroundings).failure.isSome by
    refine ⟨?_, halike.1⟩
    rw [run_code, run_code, ← halike.2]
    rfl
  by_cases hunchecked : options.output = none ∨ ∃ error, Format.ofName options.format = .error error
  · have hstays := (publish_of_unchecked surroundings.disk hunchecked).2
    have hdisk : again.disk = surroundings.disk := by
      rw [← hstays, ← effect_of_files surroundings hinputs]
    rw [effect_of_files again hinputs, effect_of_files surroundings hinputs, hdisk]
    exact ⟨.refl _, rfl⟩
  · push Not at hunchecked
    obtain ⟨directory, houtput⟩ := Option.ne_none_iff_exists'.mp hunchecked.1
    cases hformat : Format.ofName options.format with
    | error error => exact absurd hformat (hunchecked.2 error)
    | ok format =>
        have hpublish := publish_again hthere
          fun paths => hapart directory format paths houtput hformat
        have hfirst := effect_of_inputs surroundings hinputs houtput hformat
        have hsecond := effect_of_inputs again hinputs houtput hformat
        rw [hsecond]
        dsimp only [again]
        rw [hfirst]
        exact hpublish

/-- Documents that go into the directory that is searched, two of them under one name. -/
def nestedOptions : Options :=
  { inputs := ["scss", "scss/grid.scss"], output := some "scss", format := "md" }

def nestedSurroundings : Surroundings :=
  holding [(["scss", "_math.scss"], "@mixin half {}\n".toUTF8),
    (["scss", "math.scss"], "@mixin third {}\n".toUTF8),
    (["scss", "grid.scss"], "@mixin row {}\n".toUTF8)]

theorem run_again_nested :
    (effect nestedOptions nestedSurroundings).failure =
      some (.sameOutput ⟨"scss/_math.scss"⟩ ⟨"scss/math.scss"⟩ ⟨"scss/math.md"⟩) ∧
    let first := run nestedOptions nestedSurroundings
    let second := run nestedOptions { nestedSurroundings with disk := first.disk }
    second.code = first.code ∧ Disk.Agrees first.disk second.disk := by
  refine ⟨by decide +kernel, ?_⟩
  refine run_again (by decide) (by decide +kernel) fun directory format paths houtput hformat => ?_
  obtain rfl : "scss" = directory := Option.some.inj houtput
  obtain rfl : Format.markdown = format := Except.ok.inj hformat
  intro hpaths
  have hexpand : (Inputs.expand
      (prepared (settings nestedOptions "scss" .markdown) nestedSurroundings.disk)
      nestedOptions.inputs).2 =
        .ok [⟨"scss/_math.scss"⟩, ⟨"scss/grid.scss"⟩, ⟨"scss/math.scss"⟩] := by
    decide +kernel
  obtain rfl := Except.ok.inj (hexpand.symm.trans hpaths)
  unfold OutputsApart
  decide +kernel

end Program

end StyleDoc
