import Mathlib.Data.List.Pairwise
import StyleDoc.Proofs.Publishing

/-!
What happens when two inputs have documents of the same title. Publishing stops at the first input
whose output has been taken, and it stops for no other reason as long as the disk takes whatever is
written. The failure names that input and the one that has taken its output; what is on the disk
then is what publishing the inputs before it would have left.
-/

namespace StyleDoc

/-- Whether it was the disk that has refused a directory or a file. -/
def Failure.isRefusal : Failure → Bool
  | .directoryNotMade .. | .notWritten .. => true
  | _ => false

namespace Publication

variable (settings : Settings)

/-- Two of the inputs have documents of the same title. -/
def Clash (disk : Disk) (inputs : List Path) : Prop :=
  ∃ earlier ∈ inputs, ∃ later ∈ inputs, earlier ≠ later ∧
    (document? settings disk earlier).isSome ∧ (document? settings disk later).isSome ∧
      title earlier = title later

/-- The first clash among inputs: the titles before it are all different, and one of them is that of
the next input. -/
structure FirstClash (disk : Disk) (inputs front : List Path) (earlier later : Path) : Prop where
  split : ∃ rest, inputs = front ++ later :: rest
  distinct : front.Pairwise fun input other =>
    (document? settings disk input).isSome → (document? settings disk other).isSome →
      title input ≠ title other
  mem_front : earlier ∈ front
  documents : (document? settings disk earlier).isSome ∧ (document? settings disk later).isSome
  title_eq : title earlier = title later

section Loop

variable {settings} {folder : Location} {disk : Disk} {inputs front rest : List Path}
  {before after : Progress} {events : List Log.Event} {failure : Failure}

theorem FirstClash.clash {earlier later : Path} (hincreasing : Inputs.Increasing inputs)
    (hclash : FirstClash settings disk inputs front earlier later) : Clash settings disk inputs := by
  obtain ⟨rest, rfl⟩ := hclash.split
  have hne := hincreasing.components_ne_of_append hclash.mem_front
  exact ⟨earlier, List.mem_append_left _ hclash.mem_front, later,
    List.mem_append_right _ List.mem_cons_self, fun hsame => hne (congrArg _ hsame),
    hclash.documents.1, hclash.documents.2, hclash.title_eq⟩

theorem Passes.ready (hpasses : Passes settings before front events after)
    (hready : Ready settings folder before.disk (front ++ rest)) :
    Ready settings folder after.disk rest ∧ ∀ later ∈ rest,
      document? settings after.disk later = document? settings before.disk later := by
  induction hpasses with
  | nil => exact ⟨hready, fun _ _ => rfl⟩
  | cons hpass hpasses ih =>
      obtain ⟨hbetween, hkept⟩ := hpass.ready hready
      obtain ⟨hafter, hdocuments⟩ := ih hbetween
      refine ⟨hafter, fun later hlater => ?_⟩
      rw [hdocuments later hlater, hkept later (List.mem_append_right _ hlater)]

/-- Only inputs with documents take outputs. -/
theorem Passes.documented (hpasses : Passes settings before front events after)
    (hready : Ready settings folder before.disk front) :
    ∀ output source, (output, source) ∈ after.written → (output, source) ∈ before.written ∨
      (source ∈ front ∧ (document? settings before.disk source).isSome) := by
  induction hpasses with
  | nil => exact fun _ _ => Or.inl
  | @cons before between after input inputs told events hpass hpasses ih =>
      intro output source hwritten
      obtain ⟨hrest, hkept⟩ := hpass.ready hready
      rcases ih hrest output source hwritten with hbetween | ⟨hsource, hsome⟩
      · cases hpass with
        | skip hnone hevents => exact Or.inl hbetween
        | write hshown huntaken hwrite htold =>
            rcases List.mem_cons.mp hbetween with hnew | hbefore
            · cases hnew
              exact Or.inr ⟨List.mem_cons_self, by rw [hshown]; rfl⟩
            · exact Or.inl hbefore
      · exact Or.inr ⟨List.mem_cons_of_mem _ hsource, by rwa [← hkept source hsource]⟩

theorem Writes.titles_distinct {written : List (Path × Path)} {after : Disk}
    (hwrites : Writes settings folder written disk inputs after) :
    inputs.Pairwise fun input other =>
      (document? settings disk input).isSome → (document? settings disk other).isSome →
        title input ≠ title other :=
  hwrites.distinct.imp fun hdistinct hinput hother =>
    mt (fileName_inj settings).mpr (hdistinct hinput hother)

theorem Writes.not_clash {written : List (Path × Path)} {after : Disk}
    (hwrites : Writes settings folder written disk inputs after) :
    ¬ Clash settings disk inputs := by
  rintro ⟨earlier, hearlier, later, hlater, hne, hshown, hother, htitle⟩
  have hsymmetric : Std.Symm fun input other : Path =>
      (document? settings disk input).isSome → (document? settings disk other).isSome →
        title input ≠ title other :=
    ⟨fun _ _ hdistinct hother hinput => (hdistinct hinput hother).symm⟩
  exact hwrites.titles_distinct.forall hearlier hlater hne hshown hother htitle

theorem Ends.stopped_at_clash {outcome : Outcome}
    (hends : Ends settings { written := [], disk } inputs outcome)
    (hready : Ready settings folder disk inputs) (hfailure : outcome.failure = some failure)
    (haccepted : failure.isRefusal = false) :
    ∃ front earlier later, failure = .sameOutput earlier later (output settings later) ∧
      FirstClash settings disk inputs front earlier later ∧
      Writes settings folder [] disk front outcome.disk := by
  cases hends with
  | done => cases hfailure
  | @stopped front rest input events told after failure hinputs hpasses hstop htold =>
      obtain rfl := Option.some.inj hfailure
      cases hstop with
      | refused => cases haccepted
      | @taken shown taken earlier hshown htaken =>
          have hfront : Ready settings folder disk front := hready.mono (by simp [hinputs])
          obtain ⟨hafter, hkept⟩ := hpasses.ready (hinputs ▸ hready)
          have hwrites := hpasses.writes hfront
          have hmem := List.mem_of_find?_eq_some htaken
          have hsame := List.find?_some htaken
          obtain ⟨-, rfl⟩ := (hpasses.mem_written _ _ hmem).resolve_left List.not_mem_nil
          obtain ⟨hearlier, hsome⟩ :=
            (hpasses.documented hfront _ _ hmem).resolve_left List.not_mem_nil
          have hlater := hkept input List.mem_cons_self
          refine ⟨front, earlier, input, rfl, ?_, hwrites⟩
          exact {
            split := ⟨rest, hinputs⟩
            distinct := hwrites.titles_distinct
            mem_front := hearlier
            documents := ⟨hsome, by rw [← hlater, hshown]; rfl⟩
            title_eq := (fileName_inj settings).mp
              (fileName_eq_of_same settings hafter.directory hafter.folder hsame) }

end Loop

variable {settings} in
/-- The output of a clash still holds what was written for the input that took it. -/
theorem Published.lookup?_taken {before prepared after : Disk} {inputs front : List Path}
    {folder : Location} {earlier later : Path}
    (hpublished : Published settings before prepared after front folder)
    (hclash : FirstClash settings prepared inputs front earlier later) :
    ∃ shown, document? settings prepared earlier = some shown ∧
      after.lookup? (output settings later) =
        some (.file (settings.format.render shown).toUTF8) := by
  obtain ⟨shown, hshown⟩ := Option.isSome_iff_exists.mp hclash.documents.1
  have houtput : output settings later = output settings earlier := by
    rw [output, output, hclash.title_eq]
  exact ⟨shown, hshown, houtput ▸ hpublished.lookup?_output hclash.mem_front hshown⟩

variable {settings} in
/-- On a disk that takes everything, publishing fails exactly at a clash. -/
theorem publish_fails_iff_clash {disk : Disk} {inputs : List String} {paths : List Path}
    (hpaths : (Inputs.expand (prepared settings disk) inputs).2 = .ok paths)
    (hapart : OutputsApart settings (prepared settings disk) paths)
    (haccepted : ∀ failure, (publish settings disk inputs).failure = some failure →
      failure.isRefusal = false) :
    ((publish settings disk inputs).failure.isSome ↔
        Clash settings (prepared settings disk) paths) ∧
      ∀ failure, (publish settings disk inputs).failure = some failure →
        ∃ front earlier later folder,
          failure = .sameOutput earlier later (output settings later) ∧
          FirstClash settings (prepared settings disk) paths front earlier later ∧
          Published settings disk (prepared settings disk) (publish settings disk inputs).disk
            front folder := by
  have hadds := (Disk.makeDirectories_makes disk settings.directory).adds
  obtain ⟨cause, hpublish⟩ | ⟨folder, events, hdirectory, hfolder, -, hpublish⟩ :=
    publish_of_expand hpaths
  · rw [hpublish] at haccepted
    cases haccepted _ rfl
  · have hready := ready_of_expand hdirectory hfolder hpaths hapart
    have hends : Ends settings { written := [], disk := prepared settings disk } paths _ :=
      publishFrom_ends _ paths
    rw [hpublish] at haccepted ⊢
    have hstops : ∀ failure,
        (publishFrom settings [] (prepared settings disk) paths).failure = some failure →
        ∃ front earlier later, failure = .sameOutput earlier later (output settings later) ∧
          FirstClash settings (prepared settings disk) paths front earlier later ∧
          Writes settings folder [] (prepared settings disk) front
            (publishFrom settings [] (prepared settings disk) paths).disk :=
      fun failure hfailure => hends.stopped_at_clash hready hfailure (haccepted failure hfailure)
    refine ⟨⟨fun hfails => ?_, fun hclash => ?_⟩, fun failure hfailure => ?_⟩
    · obtain ⟨failure, hfailure⟩ := Option.isSome_iff_exists.mp hfails
      obtain ⟨front, earlier, later, -, hfirst, -⟩ := hstops failure hfailure
      exact hfirst.clash (Inputs.increasing_of_expand hpaths)
    · by_contra hfails
      have hnone : (publishFrom settings [] (prepared settings disk) paths).failure = none :=
        Option.not_isSome_iff_eq_none.mp hfails
      exact (publishFrom_writes hready hnone).not_clash hclash
    · obtain ⟨front, earlier, later, hsame, hfirst, hwrites⟩ := hstops failure hfailure
      have hfront : front ⊆ paths := by
        obtain ⟨rest, rfl⟩ := hfirst.split
        exact List.subset_append_left front _
      exact ⟨front, earlier, later, folder, hsame, hfirst,
        hwrites.published hadds (hready.mono hfront)⟩

end Publication

namespace Program

open Publication

/-- A run on files that publishes the given paths: its options and patterns are valid, the disk
takes whatever is written, and no output is itself an input. -/
structure Unhindered (options : Options) (surroundings : Surroundings) (directory : String)
    (format : Format) (paths : List Path) : Prop where
  given : options.inputs ≠ []
  directed : options.output = some directory
  known : Format.ofName options.format = .ok format
  expanded : (Inputs.expand (prepared (settings options directory format) surroundings.disk)
    options.inputs).2 = .ok paths
  accepted : ∀ failure, (effect options surroundings).failure = some failure →
    failure.isRefusal = false
  apart : OutputsApart (settings options directory format)
    (prepared (settings options directory format) surroundings.disk) paths

/-- What a run leaves behind that has stopped at a clash. -/
structure StoppedAt (settings : Settings) (before : Disk) (paths front : List Path)
    (earlier later : Path) (result : Result) : Prop where
  first : FirstClash settings (prepared settings before) paths front earlier later
  report : ∃ log, result.errors = log ++ ("Error: " ++ earlier.text ++ " and " ++ later.text ++
    " both map to " ++ (output settings later).text ++ "\n")
  published : ∃ folder,
    Published settings before (prepared settings before) result.disk front folder
  taken : ∃ shown, document? settings (prepared settings before) earlier = some shown ∧
    result.disk.lookup? (output settings later) =
      some (.file (settings.format.render shown).toUTF8)

theorem report_sameOutput (earlier later output : Path) :
    (Failure.sameOutput earlier later output).report =
      "Error: " ++ earlier.text ++ " and " ++ later.text ++ " both map to " ++ output.text ++
        "\n" := by
  change "Error: " ++ (earlier.text ++ " and " ++ later.text ++ " both map to " ++ output.text) ++
    "\n" = _
  simp only [String.append_assoc]

/-- All that happens to the disk is that directories are made and that texts are written to outputs,
each of these writes being told, and no output is written to twice. -/
def WritesOnce (before : Disk) (effect : Effect) : Prop :=
  ∃ made writes, before.AddsDirectories made ∧ made.writeAll writes = .ok effect.disk ∧
    writes.map Prod.fst = Log.outputs effect.events ∧
    (writes.map Prod.fst).Pairwise fun earlier later => earlier.same later = false

theorem effect_writesOnce (options : Options) (surroundings : Surroundings) :
    WritesOnce surroundings.disk (effect options surroundings) := by
  have hnothing {events : List Log.Event} {failure : Option Failure} {text : String}
      (hevents : Log.outputs events = []) :
      WritesOnce surroundings.disk { disk := surroundings.disk, output := text, events, failure } :=
    ⟨surroundings.disk, [], .refl _, rfl, hevents.symm, .nil⟩
  unfold effect
  split
  · unfold document
    split
    · exact hnothing rfl
    · dsimp only
      split <;> exact hnothing (Log.outputs_ofSections _)
  · unfold publish
    split
    · exact hnothing rfl
    · rename_i directory _
      split
      · exact hnothing rfl
      · rename_i format _
        obtain ⟨writes, htraced⟩ : ∃ writes, Traced (settings options directory format) _ _ _ writes :=
          publish_traced surroundings.disk options.inputs
        have hmade := Disk.makeDirectories_makes surroundings.disk { text := directory }
        exact ⟨_, writes, hmade.adds, htraced.written, htraced.told, htraced.distinct⟩

/-- No run writes to one output twice. An unhindered run fails exactly when two of its inputs have
documents of the same title; it has then published the inputs before the first of them whose output
was taken, and it names that input and the one that has taken the output. -/
theorem run_clashes (options : Options) (surroundings : Surroundings) :
    WritesOnce surroundings.disk (effect options surroundings) ∧
    ∀ directory format paths, Unhindered options surroundings directory format paths →
      Inputs.Increasing paths ∧
      ((run options surroundings).code = 1 ↔ Clash (settings options directory format)
        (prepared (settings options directory format) surroundings.disk) paths) ∧
      ((run options surroundings).code = 1 → ∃ front earlier later,
        StoppedAt (settings options directory format) surroundings.disk paths front earlier later
          (run options surroundings)) := by
  refine ⟨effect_writesOnce options surroundings, fun directory format paths hrun => ?_⟩
  have heffect := effect_of_inputs surroundings hrun.given hrun.directed hrun.known
  have haccepted := hrun.accepted
  rw [heffect] at haccepted
  obtain ⟨hfails, hstops⟩ := publish_fails_iff_clash hrun.expanded hrun.apart haccepted
  have hcode : (run options surroundings).code = 1 ↔ (Publication.publish
      (settings options directory format) surroundings.disk options.inputs).failure.isSome := by
    simp [run, heffect, Option.isSome_iff_ne_none]
  refine ⟨Inputs.increasing_of_expand hrun.expanded, hcode.trans hfails, fun hone => ?_⟩
  obtain ⟨failure, hfailure⟩ := Option.isSome_iff_exists.mp (hcode.mp hone)
  obtain ⟨front, earlier, later, folder, rfl, hfirst, hpublished⟩ := hstops failure hfailure
  have hdisk : (run options surroundings).disk = (Publication.publish
      (settings options directory format) surroundings.disk options.inputs).disk := by
    simp only [run, heffect]
  refine ⟨front, earlier, later, ?_⟩
  exact {
    first := hfirst
    report := ⟨_, by
      rw [← report_sameOutput]
      simp only [run, heffect, hfailure, Option.map_some, Option.getD_some]
      rfl⟩
    published := ⟨folder, hdisk ▸ hpublished⟩
    taken := hdisk ▸ hpublished.lookup?_taken hfirst }

/-- Two stylesheets with one title, and between them one that is no text. -/
def twoShelves : Surroundings :=
  holding [(["a", "_math.scss"], "/// Rounds.\n@function round-to($n) {}\n".toUTF8),
    (["a", "math.scss"], ⟨#[255]⟩), (["b", "math.scss"], "@function scale($n) {}\n".toUTF8)]

def twoShelvesOptions : Options :=
  { inputs := ["b/*.scss", "a"], output := some "out" }

theorem run_clashes_twoShelves :
    Unhindered twoShelvesOptions twoShelves "out" .json
      [⟨"a/_math.scss"⟩, ⟨"a/math.scss"⟩, ⟨"b/math.scss"⟩] ∧
    (run twoShelvesOptions twoShelves).code = 1 ∧
    ∃ front earlier later, StoppedAt (settings twoShelvesOptions "out" .json) twoShelves.disk
      [⟨"a/_math.scss"⟩, ⟨"a/math.scss"⟩, ⟨"b/math.scss"⟩] front earlier later
      (run twoShelvesOptions twoShelves) := by
  have hfailure : (effect twoShelvesOptions twoShelves).failure =
      some (.sameOutput ⟨"a/_math.scss"⟩ ⟨"b/math.scss"⟩ ⟨"out/math.json"⟩) := by
    decide +kernel
  have hrun : Unhindered twoShelvesOptions twoShelves "out" .json
      [⟨"a/_math.scss"⟩, ⟨"a/math.scss"⟩, ⟨"b/math.scss"⟩] :=
    { given := by decide
      directed := rfl
      known := rfl
      expanded := by decide +kernel
      accepted := fun failure hsome => by
        obtain rfl := Option.some.inj (hfailure.symm.trans hsome)
        rfl
      apart := by
        unfold OutputsApart
        decide +kernel }
  have hcode : (run twoShelvesOptions twoShelves).code = 1 := by decide +kernel
  exact ⟨hrun, hcode, ((run_clashes _ _).2 _ _ _ hrun).2.2 hcode⟩

end Program

end StyleDoc
