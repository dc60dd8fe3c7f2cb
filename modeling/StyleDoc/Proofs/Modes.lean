import StyleDoc.Proofs.EarlyFailure
import StyleDoc.Proofs.Titles

/-!
A text documented on standard output and in a file. Both ways read the same items and render them in
the same format; only the file has a title, which is the name of its input. A file that is published
has such a name, because a path without one leads to a directory.
-/

namespace StyleDoc

namespace Publication

variable {settings : Settings} {folder : Location} {disk : Disk} {input : Path}
  {front inputs : List Path} {written : List (Path × Path)}

/-- The first of some inputs has been written, if it is passed, and nothing writes over it. -/
theorem lookup?_output_of_success {shown : Document}
    (hdirectory : disk.follow settings.directory = .ok folder)
    (hfolder : disk.get? folder = some .directory)
    (hshown : document? settings disk input = some shown)
    (hsuccess : (publishFrom settings written disk [input]).failure = none) (rest : List Path) :
    (publishFrom settings written disk (input :: rest)).disk.lookup? (output settings input) =
      some (.file (settings.format.render shown).toUTF8) := by
  obtain ⟨events, after, hpasses, -⟩ : ∃ events after,
      Passes settings { written, disk } [input] events after ∧ after.disk = _ :=
    passes_of_success hsuccess
  have hrest := (hpasses.publishFrom_append rest).1
  rw [List.singleton_append] at hrest
  rw [hrest]
  cases hpasses with
  | cons hpass hnothing =>
      cases hnothing
      cases hpass with
      | skip hnone hevents =>
          rw [hshown] at hnone
          cases hnone
      | write hagain huntaken hwrite htold =>
          obtain rfl := Option.some.inj (hshown.symm.trans hagain)
          obtain ⟨hplace, hchanged⟩ := write_output_eq_ok hdirectory hfolder hwrite
          have houtput := follow_output settings hdirectory hfolder input
          have hkeeps : Disk.KeepsDirectories disk (publishFrom settings _ _ rest).disk :=
            (Disk.keepsDirectories_of_write hwrite).trans
              (publishFrom_keepsDirectories ((output settings input, input) :: written) _ rest)
          rw [Disk.lookup?, hkeeps.follow houtput, hchanged]
          exact get?_publishFrom_put hdirectory hfolder hplace _ written rest

/-- An input that is passed is documented as it was read, after the inputs before it. -/
theorem lookup?_published {content : String}
    (hdirectory : disk.follow settings.directory = .ok folder)
    (hfolder : disk.get? folder = some .directory)
    (hsuccess : (publishFrom settings [] disk (front ++ [input])).failure = none)
    (hread : (publishFrom settings [] disk front).disk.read input = .ok content)
    (hvisible : Item.visible settings.showPrivate (Stylesheet.items content) ≠ [])
    (rest : List Path) :
    (publishFrom settings [] disk (front ++ input :: rest)).disk.lookup? (output settings input) =
      some (.file (settings.format.render
        ⟨title input, Item.visible settings.showPrivate (Stylesheet.items content)⟩).toUTF8) := by
  obtain ⟨events, last, hpasses, -⟩ : ∃ events last,
      Passes settings { written := [], disk } (front ++ [input]) events last ∧ last.disk = _ :=
    passes_of_success hsuccess
  obtain ⟨told, between, hfront⟩ := hpasses.of_append
  have hkeeps : Disk.KeepsDirectories disk (publishFrom settings [] disk front).disk :=
    publishFrom_keepsDirectories [] disk front
  have hbetween : (publishFrom settings [] disk front).disk = between.disk := by
    have hnothing := (hfront.publishFrom_append []).1
    rwa [List.append_nil] at hnothing
  rw [hbetween] at hread hkeeps
  have hshown := document?_of_read_ok settings hread
  have hone := (hfront.publishFrom_append [input]).2
  rw [hsuccess] at hone
  rw [(hfront.publishFrom_append (input :: rest)).1]
  refine lookup?_output_of_success (hkeeps.follow hdirectory) (hkeeps.directory folder hfolder) ?_
    hone.symm rest
  rw [hshown]
  exact if_neg hvisible

theorem exists_read_of_document? {shown : Document}
    (hshown : document? settings disk input = some shown) :
    ∃ content, disk.read input = .ok content ∧
      Item.visible settings.showPrivate (Stylesheet.items content) ≠ [] := by
  cases hread : disk.read input with
  | error cause =>
      rw [document?_of_read_error settings hread] at hshown
      cases hshown
  | ok content =>
      refine ⟨content, rfl, fun hempty => ?_⟩
      rw [document?_of_read_ok settings hread] at hshown
      have hnone := hshown.symm.trans (if_pos hempty)
      cases hnone

/-- What has come of the first inputs when the next one is read. -/
def upTo (settings : Settings) (disk : Disk) (front : List Path) : Outcome :=
  publishFrom settings [] (prepared settings disk) front

theorem upTo_success {paths : List Path} (hfront : front <+: paths)
    (hsuccess : (upTo settings disk paths).failure = none) :
    (upTo settings disk front).failure = none := by
  obtain ⟨rest, rfl⟩ := hfront
  obtain ⟨events, last, hpasses, -⟩ : ∃ events last, Passes settings
      { written := [], disk := prepared settings disk } (front ++ rest) events last ∧
        last.disk = _ :=
    passes_of_success hsuccess
  obtain ⟨told, between, hpassed⟩ := hpasses.of_append
  have hnothing := (hpassed.publishFrom_append []).2
  rwa [List.append_nil] at hnothing

/-- Every output that is told is that of an input with something to show, read after the inputs
before it. -/
theorem exists_read_of_mem_outputs {paths : List Path} {path : Path}
    (hpath : path ∈ Log.outputs (upTo settings disk paths).events) :
    ∃ front input content, front ++ [input] <+: paths ∧
      (upTo settings disk (front ++ [input])).failure = none ∧
      (upTo settings disk front).disk.read input = .ok content ∧
      Item.visible settings.showPrivate (Stylesheet.items content) ≠ [] ∧
      path = output settings input := by
  obtain ⟨passed, told, last, hpassed, hpasses, -, houtputs⟩ : ∃ passed told last,
      passed <+: paths ∧
        Passes settings { written := [], disk := prepared settings disk } passed told last ∧ _ :=
    publishFrom_passes _ paths
  rw [upTo, houtputs] at hpath
  obtain ⟨front, input, rest, rfl, rfl, more, between, event, next, hfront, hnext, hsome⟩ :=
    hpasses.exists_pass_of_mem_outputs hpath
  obtain ⟨shown, hshown⟩ := Option.isSome_iff_exists.mp hsome
  obtain ⟨content, hread, hvisible⟩ := exists_read_of_document? hshown
  refine ⟨front, input, content, ?_, ?_, ?_, hvisible, rfl⟩
  · rw [← List.singleton_append, ← List.append_assoc] at hpassed
    exact (List.prefix_append _ rest).trans hpassed
  · exact ((hfront.publishFrom_append [input]).2).trans
      ((Passes.cons hnext (.nil next)).publishFrom_append []).2
  · have hbetween := (hfront.publishFrom_append []).1
    rw [List.append_nil] at hbetween
    rw [upTo, hbetween]
    exact hread

end Publication

namespace Program

open Publication

/-- What a run prints that documents a text with the same options. -/
def printed (options : Options) (surroundings : Surroundings) (content : String) : String :=
  (run { options with inputs := [] } { surroundings with input := content.toUTF8 }).output

theorem printed_eq {options : Options} {format : Format}
    (hformat : Format.ofName options.format = .ok format) (surroundings : Surroundings)
    (content : String) :
    printed options surroundings content =
      format.render { items := Item.visible options.showPrivate (Stylesheet.items content) } := by
  rw [printed, run_output, effect_of_text _ rfl, document]
  simp only [fromUTF8?_toUTF8, hformat]
  rfl

/-- A document with a title is what is printed for its text, with the title put in. -/
theorem render_eq_titled_printed {options : Options} {format : Format} (directory : String)
    (hformat : Format.ofName options.format = .ok format) (surroundings : Surroundings)
    (content : String) {title : String} (htitle : title ≠ "") :
    (settings options directory format).format.render
        ⟨title, Item.visible (settings options directory format).showPrivate
          (Stylesheet.items content)⟩ =
      (settings options directory format).format.titled title
        (printed options surroundings content) := by
  rw [printed_eq hformat]
  exact Format.render_titled format htitle _

/-- How what a run writes goes with what is printed for the same texts. -/
structure ModesAgree (options : Options) (surroundings : Surroundings) (settings : Settings)
    (paths : List Path) : Prop where
  named : ∀ input ∈ paths, title input ≠ ""
  written : ∀ front input content, front ++ [input] <+: paths →
    (upTo settings surroundings.disk (front ++ [input])).failure = none →
    (upTo settings surroundings.disk front).disk.read input = .ok content →
    Item.visible options.showPrivate (Stylesheet.items content) ≠ [] →
      (run options surroundings).disk.lookup? (output settings input) =
        some (.file (settings.format.titled (title input)
          (printed options surroundings content)).toUTF8)
  told : ∀ path ∈ Log.outputs (effect options surroundings).events, ∃ front input content,
    front ++ [input] <+: paths ∧
      (upTo settings surroundings.disk (front ++ [input])).failure = none ∧
      (upTo settings surroundings.disk front).disk.read input = .ok content ∧
      Item.visible options.showPrivate (Stylesheet.items content) ≠ [] ∧
      path = output settings input
  complete : (run options surroundings).code = 0 → ∀ front, front <+: paths →
    (upTo settings surroundings.disk front).failure = none
  apart : OutputsApart settings (prepared settings surroundings.disk) paths →
    (run options surroundings).code = 0 → ∀ input ∈ paths, ∀ content,
      surroundings.disk.read input = .ok content →
      Item.visible options.showPrivate (Stylesheet.items content) ≠ [] →
        (run options surroundings).disk.lookup? (output settings input) =
          some (.file (settings.format.titled (title input)
            (printed options surroundings content)).toUTF8)

/-- A run on files that can make its directory ends as publishing ends after the last input. -/
theorem run_eq_upTo {options : Options} {surroundings : Surroundings} {directory : String}
    {format : Format} {paths : List Path} (hinputs : options.inputs ≠ [])
    (houtput : options.output = some directory)
    (hformat : Format.ofName options.format = .ok format)
    (hmade : (surroundings.disk.makeDirectories { text := directory }).2 = none)
    (hpaths : (Inputs.expand (prepared (settings options directory format) surroundings.disk)
      options.inputs).2 = .ok paths) :
    let last := upTo (settings options directory format) surroundings.disk paths
    (run options surroundings).disk = last.disk ∧
      ((run options surroundings).code = 0 → last.failure = none) ∧
      Log.outputs (effect options surroundings).events = Log.outputs last.events := by
  have hpublish : Publication.publish (settings options directory format) surroundings.disk
      options.inputs = _ := publish_of_prepared options.inputs hmade
  have hnothing := Inputs.outputs_expand
    (prepared (settings options directory format) surroundings.disk) options.inputs
  have heffect := effect_of_inputs surroundings hinputs houtput hformat
  simp only [hpaths] at hpublish
  rw [hpublish] at heffect
  refine ⟨?_, fun hcode => ?_, ?_⟩
  · rw [run_disk, heffect]
    rfl
  · simpa [run_code, heffect, upTo, Outcome.after] using hcode
  · rw [heffect]
    dsimp only [Outcome.after]
    rw [Log.outputs_append, hnothing, List.nil_append]
    rfl

/-- A file that a run writes is what is printed for the text of its input, with the name of the
input for its title. -/
theorem run_modes_agree {options : Options} {surroundings : Surroundings} {directory : String}
    {format : Format} {paths : List Path} (hinputs : options.inputs ≠ [])
    (houtput : options.output = some directory)
    (hformat : Format.ofName options.format = .ok format) (hrooted : surroundings.disk.IsRooted)
    (hmade : (surroundings.disk.makeDirectories { text := directory }).2 = none)
    (hpaths : (Inputs.expand (prepared (settings options directory format) surroundings.disk)
      options.inputs).2 = .ok paths) :
    ModesAgree options surroundings (settings options directory format) paths := by
  obtain ⟨hdisk, hsuccess, houtputs⟩ := run_eq_upTo hinputs houtput hformat hmade hpaths
  have hadds := (Disk.makeDirectories_makes surroundings.disk { text := directory }).adds
  have hnamed : ∀ input ∈ paths, title input ≠ "" := by
    intro input hinput
    have hfile := Inputs.isFile_of_mem_expand hpaths input hinput
    obtain ⟨name, hname, hne⟩ :=
      Disk.exists_fileName?_of_isFile (hrooted.mono hadds.keepsDirectories) hfile
    exact title_ne_empty hname hne
  refine ⟨hnamed, ?written, ?told, ?complete, ?apart⟩
  case written =>
    rintro front input content ⟨rest, rfl⟩ hpassed hread hvisible
    obtain ⟨folder, hdirectory, hfolder⟩ : ∃ folder,
        (prepared (settings options directory format) surroundings.disk).follow
          { text := directory } = .ok folder ∧ _ :=
      exists_folder_of_prepared hmade
    have hlookup := lookup?_published hdirectory hfolder hpassed hread hvisible rest
    rw [render_eq_titled_printed directory hformat surroundings content (hnamed input (by simp))]
      at hlookup
    rw [hdisk, List.append_assoc]
    exact hlookup
  case told =>
    intro path hpath
    rw [houtputs] at hpath
    exact exists_read_of_mem_outputs hpath
  case complete =>
    intro hcode front hfront
    exact upTo_success hfront (hsuccess hcode)
  case apart =>
    intro hapart hcode input hinput content hread hvisible
    have hnone : (Publication.publish (settings options directory format) surroundings.disk
        options.inputs).failure = none := by
      simpa [run_code, effect_of_inputs surroundings hinputs houtput hformat] using hcode
    obtain ⟨found, folder, hfound, hpublished⟩ := publish_published hnone fun found hfound =>
      Except.ok.inj (hpaths.symm.trans hfound) ▸ hapart
    obtain rfl := Except.ok.inj (hpaths.symm.trans hfound)
    have hshown := document?_of_read_ok (settings options directory format)
      (hadds.read_eq_ok hread)
    have hlookup := hpublished.lookup?_output hinput (hshown.trans (if_neg hvisible))
    rw [run_disk, effect_of_inputs surroundings hinputs houtput hformat,
      ← render_eq_titled_printed directory hformat surroundings content (hnamed input hinput)]
    exact hlookup

def pageOptions : Options :=
  { libraryOptions with format := "html" }

theorem run_modes_agree_library :
    (run pageOptions librarySurroundings).code = 0 ∧
      ModesAgree pageOptions librarySurroundings (settings pageOptions "out" .html)
        [⟨"scss/_math.scss"⟩, ⟨"scss/notes.scss"⟩, ⟨"scss/raw.scss"⟩] := by
  have hrooted : librarySurroundings.disk.IsRooted := fun above habove =>
    List.prefix_nil.mp habove ▸ Disk.get?_nil _
  have hpaths : (Inputs.expand (prepared (settings pageOptions "out" .html) librarySurroundings.disk)
      pageOptions.inputs).2 =
        .ok [⟨"scss/_math.scss"⟩, ⟨"scss/notes.scss"⟩, ⟨"scss/raw.scss"⟩] := by
    decide +kernel
  exact ⟨by decide +kernel,
    run_modes_agree (by decide) rfl rfl hrooted (by decide +kernel) hpaths⟩

end Program

end StyleDoc
