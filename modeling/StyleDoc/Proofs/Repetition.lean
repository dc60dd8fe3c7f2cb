import StyleDoc.Proofs.InputOrder

/-!
Inputs that are named more than once. A path is documented once, however many of the inputs find it
and however they spell it, and finding it once more changes nothing. Paths are told apart by their
components: where one file is reached by paths with different components, these are different
inputs. That takes a dot at the start, two dots, or paths of which only one is absolute.
-/

namespace StyleDoc

namespace Inputs

/-- What any of the inputs finds is there exactly once. -/
theorem count_components_of_finds {disk : Disk} {inputs : List String} {paths : List Path}
    (hexpand : (expand disk inputs).2 = .ok paths) {input : String} (hinput : input ∈ inputs)
    {components : List Path.Component} (hfinds : Finds disk input components) :
    (paths.map Path.components).count components = 1 :=
  List.count_eq_one_of_mem (increasing_of_expand hexpand).nodup
    ((mem_components_expand hexpand components).mpr ⟨input, hinput, hfinds⟩)

theorem find_of_isFile {disk : Disk} {input : String}
    (hfile : disk.isFile { text := input } = true) :
    find disk input = .ok ([{ text := input }], []) := by
  rw [find]
  exact if_pos hfile

theorem finds_iff_of_isFile {disk : Disk} {input : String}
    (hfile : disk.isFile { text := input } = true) (components : List Path.Component) :
    Finds disk input components ↔ components = Path.components { text := input } := by
  rw [Finds, find_of_isFile hfile]
  constructor
  · rintro ⟨_, _, ⟨⟩, hmem⟩
    exact List.mem_singleton.mp hmem
  · rintro rfl
    exact ⟨_, _, rfl, List.mem_singleton_self _⟩

end Inputs

namespace Publication

variable {settings : Settings} {folder : Location} {disk : Disk} {inputs : List Path}

/-- The outputs that are written are those of the inputs with documents. -/
theorem Passes.outputs_eq {before after : Progress} {events : List Log.Event}
    (hpasses : Passes settings before inputs events after)
    (hready : Ready settings folder before.disk inputs) :
    Log.outputs events =
      (inputs.filter fun input => (document? settings before.disk input).isSome).map
        (output settings) := by
  induction hpasses with
  | nil => rfl
  | @cons before between after input inputs told events hpass hpasses ih =>
      obtain ⟨hrest, hkept⟩ := hpass.ready hready
      have hfilter : (inputs.filter fun input => (document? settings between.disk input).isSome) =
          inputs.filter fun input => (document? settings before.disk input).isSome :=
        List.filter_congr fun later hlater => by rw [hkept later hlater]
      rw [Log.outputs_append, hpass.outputs_eq, ih hrest, hfilter, List.filter_cons]
      split <;> rfl

/-- Inputs with the same components never claim the same output. -/
theorem Ends.components_ne {outcome : Outcome} {earlier later taken : Path}
    (hends : Ends settings { written := [], disk } inputs outcome)
    (hincreasing : Inputs.Increasing inputs)
    (hfailure : outcome.failure = some (.sameOutput earlier later taken)) :
    earlier ∈ inputs ∧ later ∈ inputs ∧ earlier.components ≠ later.components := by
  cases hends with
  | done => cases hfailure
  | @stopped front rest input events told after failure hinputs hpasses hstop htold =>
      obtain rfl := Option.some.inj hfailure
      cases hstop with
      | @taken shown taken earlier hshown htaken =>
          obtain ⟨hearlier, -⟩ := (hpasses.mem_written _ _
            (List.mem_of_find?_eq_some htaken)).resolve_left List.not_mem_nil
          subst hinputs
          exact ⟨List.mem_append_left _ hearlier, List.mem_append_right _ List.mem_cons_self,
            hincreasing.components_ne_of_append hearlier⟩

theorem publish_components_ne {inputs : List String} {paths : List Path}
    {earlier later taken : Path}
    (hpaths : (Inputs.expand (prepared settings disk) inputs).2 = .ok paths)
    (hfailure : (publish settings disk inputs).failure = some (.sameOutput earlier later taken)) :
    earlier ∈ paths ∧ later ∈ paths ∧ earlier.components ≠ later.components := by
  obtain ⟨cause, hpublish⟩ | ⟨folder, events, -, -, -, hpublish⟩ := publish_of_expand hpaths
  · rw [hpublish] at hfailure
    cases hfailure
  · rw [hpublish] at hfailure
    exact (publishFrom_ends _ paths).components_ne (Inputs.increasing_of_expand hpaths) hfailure

/-- Publishing that succeeds writes one output for every path with a document. -/
theorem publish_outputs_eq {inputs : List String} {paths : List Path}
    (hpaths : (Inputs.expand (prepared settings disk) inputs).2 = .ok paths)
    (hapart : OutputsApart settings (prepared settings disk) paths)
    (hsuccess : (publish settings disk inputs).failure = none) :
    Log.outputs (publish settings disk inputs).events =
      (paths.filter fun path => (document? settings (prepared settings disk) path).isSome).map
        (output settings) := by
  obtain ⟨cause, hpublish⟩ | ⟨folder, events, hdirectory, hfolder, hevents, hpublish⟩ :=
    publish_of_expand hpaths
  · rw [hpublish] at hsuccess
    cases hsuccess
  · have hready := ready_of_expand hdirectory hfolder hpaths hapart
    have hends : Ends settings { written := [], disk := prepared settings disk } paths _ :=
      publishFrom_ends _ paths
    rw [hpublish] at hsuccess ⊢
    rw [Outcome.after, Log.outputs_append, hevents, List.nil_append]
    generalize publishFrom settings [] (prepared settings disk) paths = outcome at hends hsuccess ⊢
    cases hends with
    | done hpasses => exact hpasses.outputs_eq hready
    | stopped => cases hsuccess

end Publication

namespace Program

open Publication

/-- What it means that a run on files counts every path once. -/
structure CountsOnce (options : Options) (surroundings : Surroundings) (settings : Settings)
    (paths : List Path) : Prop where
  found : ∀ input ∈ options.inputs, ∀ components,
    Inputs.Finds (prepared settings surroundings.disk) input components →
      (paths.map Path.components).count components = 1
  apart : ∀ path ∈ paths, ∀ other ∈ paths, path.Comparable other →
    (prepared settings surroundings.disk).follow path =
      (prepared settings surroundings.disk).follow other → path = other
  documented : ∃ sources : List Path, sources.Sublist paths ∧
    Log.outputs (effect options surroundings).events = sources.map (output settings)
  complete : (run options surroundings).code = 0 →
    OutputsApart settings (prepared settings surroundings.disk) paths →
      Log.outputs (effect options surroundings).events =
        (paths.filter fun path =>
          (document? settings (prepared settings surroundings.disk) path).isSome).map
            (output settings)
  clash : ∀ earlier later taken,
    (effect options surroundings).failure = some (.sameOutput earlier later taken) →
      earlier.components ≠ later.components ∧ (earlier.Comparable later →
        (prepared settings surroundings.disk).follow earlier ≠
          (prepared settings surroundings.disk).follow later)
  again : ∀ again : List String,
    (∀ input ∈ again, Inputs.IsValid (prepared settings surroundings.disk) input ∧
      ∀ components, Inputs.Finds (prepared settings surroundings.disk) input components →
        components ∈ paths.map Path.components) →
      EndsAlike { options with inputs := options.inputs ++ again } options surroundings
  named : ∀ path ∈ paths, ∀ text : String,
    (prepared settings surroundings.disk).isFile { text } = true →
      Path.components { text } = path.components →
        EndsAlike { options with inputs := options.inputs ++ [text] } options surroundings
  respelled : ∀ front back superfluous : String, superfluous = "" ∨ superfluous = "." →
    { text := front ++ "/" ++ back } ∈ paths →
      EndsAlike
        { options with inputs := options.inputs ++ [front ++ "/" ++ superfluous ++ "/" ++ back] }
        options surroundings

variable {options : Options} {surroundings : Surroundings} {directory : String} {format : Format}
  {paths : List Path}

section Again

variable (hinputs : options.inputs ≠ []) (houtput : options.output = some directory)
  (hformat : Format.ofName options.format = .ok format)
  (hpaths : (Inputs.expand (prepared (settings options directory format) surroundings.disk)
    options.inputs).2 = .ok paths)

include hinputs houtput hformat hpaths

/-- Inputs that find nothing new change nothing. -/
theorem endsAlike_of_again (again : List String)
    (hagain : ∀ input ∈ again,
      Inputs.IsValid (prepared (settings options directory format) surroundings.disk) input ∧
      ∀ components, Inputs.Finds (prepared (settings options directory format) surroundings.disk)
        input components → components ∈ paths.map Path.components) :
    EndsAlike { options with inputs := options.inputs ++ again } options surroundings := by
  have hmore : options.inputs ++ again ≠ [] := List.append_ne_nil_of_left_ne_nil hinputs again
  refine endsAlike_of_publish hinputs hmore fun target shape htarget hshape => ?_
  obtain rfl := Option.some.inj (houtput.symm.trans htarget)
  obtain rfl := Except.ok.inj (hformat.symm.trans hshape)
  refine publish_alike ?_ fun components => ?_
  · rw [List.forall_mem_append]
    exact and_iff_left fun input hinput => (hagain input hinput).1
  · refine ⟨?_, fun ⟨input, hinput, hfinds⟩ => ⟨input, List.mem_append_left _ hinput, hfinds⟩⟩
    rintro ⟨input, hinput, hfinds⟩
    rcases List.mem_append.mp hinput with hfirst | hlater
    · exact ⟨input, hfirst, hfinds⟩
    · exact (Inputs.mem_components_expand hpaths components).mp
        ((hagain input hlater).2 components hfinds)

/-- It does not matter how a file is spelled that is there already. -/
theorem endsAlike_of_named {path : Path} (hpath : path ∈ paths) {text : String}
    (hfile : (prepared (settings options directory format) surroundings.disk).isFile { text } =
      true)
    (hcomponents : Path.components { text } = path.components) :
    EndsAlike { options with inputs := options.inputs ++ [text] } options surroundings := by
  refine endsAlike_of_again hinputs houtput hformat hpaths [text] fun input hinput => ?_
  obtain rfl := List.mem_singleton.mp hinput
  refine ⟨⟨_, _, Inputs.find_of_isFile hfile⟩, fun components hfinds => ?_⟩
  rw [(Inputs.finds_iff_of_isFile hfile components).mp hfinds, hcomponents]
  exact List.mem_map_of_mem hpath

end Again

/-- However its inputs are spelled and repeated, a run on files counts every path once. -/
theorem run_counts_once (hinputs : options.inputs ≠ [])
    (houtput : options.output = some directory)
    (hformat : Format.ofName options.format = .ok format)
    (hpaths : (Inputs.expand (prepared (settings options directory format) surroundings.disk)
      options.inputs).2 = .ok paths) :
    CountsOnce options surroundings (settings options directory format) paths := by
  have heffect := effect_of_inputs surroundings hinputs houtput hformat
  have hfile := Inputs.isFile_of_mem_expand hpaths
  refine ⟨?found, ?apart, ?documented, ?complete, ?clash, ?again, ?named, ?respelled⟩
  case found =>
    exact fun input hinput components => Inputs.count_components_of_finds hpaths hinput
  case apart =>
    intro path hpath other hother hcomparable hsame
    obtain ⟨place, hplace⟩ := Disk.exists_follow_of_isFile (hfile path hpath)
    have hcomponents := Disk.components_eq_of_follow_eq hcomparable hplace (hsame ▸ hplace)
    exact List.inj_on_of_nodup_map (Inputs.increasing_of_expand hpaths).nodup hpath hother
      hcomponents
  case documented =>
    obtain ⟨writes, htraced⟩ : ∃ writes, Traced (settings options directory format) _ _ _ writes :=
      publish_traced surroundings.disk options.inputs
    obtain ⟨sources, hsources, houtputs⟩ := htraced.sources
    rw [hpaths] at hsources
    rw [heffect]
    exact ⟨sources, hsources, htraced.told.symm.trans houtputs⟩
  case complete =>
    intro hzero hapart
    have hsuccess : (Publication.publish (settings options directory format) surroundings.disk
        options.inputs).failure = none := by
      simpa [run, heffect] using hzero
    rw [heffect]
    exact publish_outputs_eq hpaths hapart hsuccess
  case clash =>
    intro earlier later taken hfailure
    rw [heffect] at hfailure
    obtain ⟨hearlier, -, hne⟩ := publish_components_ne hpaths hfailure
    obtain ⟨place, hplace⟩ := Disk.exists_follow_of_isFile (hfile earlier hearlier)
    refine ⟨hne, fun hcomparable hsame => hne ?_⟩
    exact Disk.components_eq_of_follow_eq hcomparable hplace (hsame ▸ hplace)
  case again =>
    exact endsAlike_of_again hinputs houtput hformat hpaths
  case named =>
    exact fun path hpath text => endsAlike_of_named hinputs houtput hformat hpaths hpath
  case respelled =>
    intro front back superfluous hsuperfluous hpath
    refine endsAlike_of_named hinputs houtput hformat hpaths hpath ?_
      (Path.components_superfluous front back hsuperfluous)
    rw [← hfile _ hpath, Disk.isFile, Disk.isFile, Disk.lookup?, Disk.lookup?,
      Disk.follow_superfluous _ front back hsuperfluous]

/-- One stylesheet that is named, found in its directory and matched by a pattern. -/
def shelfOptions : Options :=
  { inputs := ["scss/*.scss", "scss/./_math.scss", "scss", "scss//_math.scss"],
    output := some "out" }

def shelfSurroundings : Surroundings :=
  holding [(["scss", "_math.scss"], "@mixin half {}\n".toUTF8),
    (["scss", "grid.scss"], "@mixin row {}\n".toUTF8)]

theorem run_counts_once_shelf :
    (Inputs.expand (prepared (settings shelfOptions "out" .json) shelfSurroundings.disk)
      shelfOptions.inputs).2 = .ok [⟨"scss/_math.scss"⟩, ⟨"scss/grid.scss"⟩] ∧
    CountsOnce shelfOptions shelfSurroundings (settings shelfOptions "out" .json)
      [⟨"scss/_math.scss"⟩, ⟨"scss/grid.scss"⟩] := by
  have hpaths : (Inputs.expand (prepared (settings shelfOptions "out" .json) shelfSurroundings.disk)
      shelfOptions.inputs).2 = .ok [⟨"scss/_math.scss"⟩, ⟨"scss/grid.scss"⟩] := by
    decide +kernel
  exact ⟨hpaths, run_counts_once (by decide) rfl rfl hpaths⟩

/-- Two paths of one file, of which one starts with a dot. -/
def dottedOptions : Options :=
  { inputs := ["a.scss", "./a.scss"], output := some "out" }

def dottedSurroundings : Surroundings :=
  holding [(["a.scss"], "@mixin a {}\n".toUTF8)]

theorem run_counts_dotted_twice :
    (prepared (settings dottedOptions "out" .json) dottedSurroundings.disk).follow ⟨"./a.scss"⟩ =
      (prepared (settings dottedOptions "out" .json) dottedSurroundings.disk).follow ⟨"a.scss"⟩ ∧
    (prepared (settings dottedOptions "out" .json) dottedSurroundings.disk).isFile ⟨"a.scss"⟩ =
      true ∧
    (effect dottedOptions dottedSurroundings).failure =
      some (.sameOutput ⟨"./a.scss"⟩ ⟨"a.scss"⟩ ⟨"out/a.json"⟩) := by
  decide +kernel

end Program

end StyleDoc
