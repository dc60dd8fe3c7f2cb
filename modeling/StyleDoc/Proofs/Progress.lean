import StyleDoc.Proofs.Documents

/-!
How publishing gets from one input to the next. An input is passed when it has nothing to show, or
when its document is written to an output that is not taken yet; at any other input publishing
stops. A run therefore passes the inputs up to the one that it stops at, or all of them, and
whatever holds of a run is shown for one input first and for a list of them by induction.
-/

namespace StyleDoc

namespace Log

/-- The output that an event tells the writing of. -/
def Event.output? : Event → Option Path
  | .wrote output => some output
  | _ => none

/-- The outputs that were written, in the order of the writes. -/
def outputs (events : List Event) : List Path :=
  events.filterMap Event.output?

theorem outputs_append (events more : List Event) :
    outputs (events ++ more) = outputs events ++ outputs more :=
  List.filterMap_append

/-- Reading a stylesheet writes nothing. -/
theorem outputs_ofSections (parts : List Section) : outputs (ofSections parts) = [] := by
  rw [outputs, List.filterMap_eq_nil_iff]
  intro event hevent
  obtain ⟨part, -, hpart⟩ := List.mem_flatMap.mp hevent
  rcases List.mem_pair.mp hpart with rfl | rfl <;> rfl

end Log

namespace Inputs

/-- Expanding inputs writes nothing. -/
theorem outputs_expand (disk : Disk) (inputs : List String) :
    Log.outputs (expand disk inputs).1 = [] := by
  change Log.outputs (findAll disk inputs).1 = []
  induction inputs with
  | nil => rfl
  | cons input inputs ih =>
      rw [findAll]
      split
      · rfl
      · rename_i files events hfind
        have hevents : Log.outputs events = [] := by
          unfold find at hfind
          dsimp only at hfind
          split at hfind
          · cases hfind
            rfl
          · split at hfind
            · cases hfind
              rfl
            · split at hfind
              · cases hfind
              · cases hfind
                split <;> rfl
        rw [Log.outputs_append, hevents, ih]
        rfl

end Inputs

namespace Publication

variable {settings : Settings} {disk : Disk} {input : Path} {front inputs : List Path}
  {written : List (Path × Path)} {shown : Document}

/-- How far publishing has come: the outputs that were written, the last one first, each with its
input, and the disk. -/
structure Progress where
  written : List (Path × Path)
  disk : Disk

/-- One input that publishing goes on after. -/
inductive Pass (settings : Settings) (before : Progress) (input : Path) :
    List Log.Event → Progress → Prop
  | skip {events : List Log.Event} (hnone : document? settings before.disk input = none)
      (hevents : Log.outputs events = []) : Pass settings before input events before
  | write {told : List Log.Event} {shown : Document} {changed : Disk}
      (hshown : document? settings before.disk input = some shown)
      (huntaken : before.written.find? (·.1.same (output settings input)) = none)
      (hwrite : before.disk.write (output settings input) (settings.format.render shown) =
        .ok changed)
      (htold : Log.outputs told = []) :
      Pass settings before input (told ++ [.wrote (output settings input)])
        { written := (output settings input, input) :: before.written, disk := changed }

/-- One input after the other that publishing goes on after. -/
inductive Passes (settings : Settings) :
    Progress → List Path → List Log.Event → Progress → Prop
  | nil (before : Progress) : Passes settings before [] [] before
  | cons {before between after : Progress} {input : Path} {inputs : List Path}
      {told events : List Log.Event} (hpass : Pass settings before input told between)
      (hpasses : Passes settings between inputs events after) :
      Passes settings before (input :: inputs) (told ++ events) after

/-- An input that publishing stops at. -/
inductive Stop (settings : Settings) (progress : Progress) (input : Path) : Failure → Prop
  | taken {shown : Document} {taken earlier : Path}
      (hshown : document? settings progress.disk input = some shown)
      (htaken : progress.written.find? (·.1.same (output settings input)) =
        some (taken, earlier)) :
      Stop settings progress input (.sameOutput earlier input (output settings input))
  | refused {shown : Document} {cause : FileError}
      (hwrite : progress.disk.write (output settings input) (settings.format.render shown) =
        .error cause) :
      Stop settings progress input (.notWritten (output settings input) cause)

/-- How publishing inputs may end. -/
inductive Ends (settings : Settings) (before : Progress) (inputs : List Path) : Outcome → Prop
  | done {events : List Log.Event} {after : Progress}
      (hpasses : Passes settings before inputs events after) :
      Ends settings before inputs { disk := after.disk, events, failure := none }
  | stopped {front rest : List Path} {input : Path} {events told : List Log.Event}
      {after : Progress} {failure : Failure} (hinputs : inputs = front ++ input :: rest)
      (hpasses : Passes settings before front events after)
      (hstop : Stop settings after input failure) (htold : Log.outputs told = []) :
      Ends settings before inputs
        { disk := after.disk, events := events ++ told, failure := some failure }

theorem publishFrom_of_undocumented (hnone : document? settings disk input = none) :
    ∃ events, Log.outputs events = [] ∧
      publishFrom settings written disk (input :: inputs) =
        (publishFrom settings written disk inputs).after events := by
  rw [publishFrom]
  split
  · exact ⟨_, rfl, rfl⟩
  · rename_i content hread
    rw [document?_of_read_ok settings hread] at hnone
    dsimp only at hnone ⊢
    split at hnone
    · rename_i hempty
      rw [if_pos hempty]
      refine ⟨_, ?_, rfl⟩
      rw [Log.outputs_append, Log.outputs_ofSections]
      rfl
    · cases hnone

/-- A document is only published under a name that no earlier input has taken, and is written before
the other inputs are looked at. -/
theorem publishFrom_of_documented (hshown : document? settings disk input = some shown) :
    ∃ told, Log.outputs told = [] ∧
      publishFrom settings written disk (input :: inputs) =
        match written.find? (·.1.same (output settings input)) with
        | some (_, earlier) =>
            { disk, events := told,
              failure := some (.sameOutput earlier input (output settings input)) }
        | none =>
            match disk.write (output settings input) (settings.format.render shown) with
            | .error cause =>
                { disk, events := told,
                  failure := some (.notWritten (output settings input) cause) }
            | .ok changed =>
                (publishFrom settings ((output settings input, input) :: written) changed
                  inputs).after (told ++ [.wrote (output settings input)]) := by
  rw [publishFrom]
  split
  · rename_i cause hread
    rw [document?_of_read_error settings hread] at hshown
    cases hshown
  · rename_i content hread
    rw [document?_of_read_ok settings hread] at hshown
    dsimp only at hshown ⊢
    split at hshown
    · cases hshown
    · rename_i hitems
      obtain rfl := Option.some.inj hshown
      rw [if_neg hitems]
      exact ⟨_, Log.outputs_ofSections _, rfl⟩

theorem Outcome.outputs_after (events : List Log.Event) (outcome : Outcome) :
    Log.outputs (outcome.after events).events = Log.outputs events ++ Log.outputs outcome.events :=
  Log.outputs_append events outcome.events

/-- An end of what follows a passed input is an end of the whole. -/
theorem Ends.after {before between : Progress} {told : List Log.Event} {outcome : Outcome}
    (hpass : Pass settings before input told between)
    (hends : Ends settings between inputs outcome) :
    Ends settings before (input :: inputs) (outcome.after told) := by
  cases hends with
  | done hpasses => exact .done (.cons hpass hpasses)
  | stopped hinputs hpasses hstop htold =>
      rw [Outcome.after, ← List.append_assoc]
      exact .stopped (congrArg _ hinputs) (.cons hpass hpasses) hstop htold

theorem publishFrom_ends (before : Progress) (inputs : List Path) :
    Ends settings before inputs (publishFrom settings before.written before.disk inputs) := by
  induction inputs generalizing before with
  | nil => exact .done (.nil before)
  | cons input inputs ih =>
      cases hshown : document? settings before.disk input with
      | none =>
          obtain ⟨events, hevents, heq⟩ := publishFrom_of_undocumented hshown
          rw [heq]
          exact (ih before).after (.skip hshown hevents)
      | some shown =>
          obtain ⟨told, htold, heq⟩ := publishFrom_of_documented hshown
          rw [heq]
          split
          · rename_i taken earlier htaken
            exact .stopped rfl (.nil before) (.taken hshown htaken) htold
          · rename_i huntaken
            split
            · rename_i cause hwrite
              exact .stopped rfl (.nil before) (.refused hwrite) htold
            · rename_i changed hwrite
              exact (ih _).after (.write hshown huntaken hwrite htold)

theorem Pass.keepsDirectories {before after : Progress} {events : List Log.Event}
    (hpass : Pass settings before input events after) :
    Disk.KeepsDirectories before.disk after.disk := by
  cases hpass with
  | skip hnone hevents => exact .refl before.disk
  | write hshown huntaken hwrite htold => exact Disk.keepsDirectories_of_write hwrite

theorem Passes.keepsDirectories {before after : Progress} {events : List Log.Event}
    (hpasses : Passes settings before inputs events after) :
    Disk.KeepsDirectories before.disk after.disk := by
  induction hpasses with
  | nil before => exact .refl before.disk
  | cons hpass hpasses ih => exact hpass.keepsDirectories.trans ih

theorem Pass.written_subset {before after : Progress} {events : List Log.Event}
    (hpass : Pass settings before input events after) : before.written ⊆ after.written := by
  cases hpass with
  | skip hnone hevents => exact List.Subset.refl before.written
  | write hshown huntaken hwrite htold => exact List.subset_cons_self _ before.written

/-- The outputs that have been taken are those whose writing is told, and no two are the same. -/
structure Recorded (before : Progress) (events : List Log.Event) (after : Progress) : Prop where
  outputs : after.written.map Prod.fst = (Log.outputs events).reverse ++ before.written.map Prod.fst
  distinct : (before.written.Pairwise fun later earlier => earlier.1.same later.1 = false) →
    after.written.Pairwise fun later earlier => earlier.1.same later.1 = false

theorem Pass.recorded {before after : Progress} {events : List Log.Event}
    (hpass : Pass settings before input events after) : Recorded before events after := by
  cases hpass with
  | skip hnone hevents => exact ⟨by rw [hevents]; rfl, id⟩
  | write hshown huntaken hwrite htold =>
      refine ⟨?_, fun hbefore => List.pairwise_cons.mpr ⟨fun earlier hearlier => ?_, hbefore⟩⟩
      · rw [Log.outputs_append, htold]
        rfl
      · simpa using List.find?_eq_none.mp huntaken earlier hearlier

theorem Passes.recorded {before after : Progress} {events : List Log.Event}
    (hpasses : Passes settings before inputs events after) : Recorded before events after := by
  induction hpasses with
  | nil => exact ⟨rfl, id⟩
  | cons hpass hpasses ih =>
      obtain ⟨houtputs, hdistinct⟩ := hpass.recorded
      refine ⟨?_, ih.distinct ∘ hdistinct⟩
      rw [ih.outputs, houtputs, Log.outputs_append, List.reverse_append, List.append_assoc]

/-- Every output that has been taken is that of one of the inputs. -/
theorem Passes.mem_written {before after : Progress} {events : List Log.Event}
    (hpasses : Passes settings before inputs events after) :
    ∀ output source, (output, source) ∈ after.written → (output, source) ∈ before.written ∨
      (source ∈ inputs ∧ output = Publication.output settings source) := by
  induction hpasses with
  | nil => exact fun _ _ => Or.inl
  | @cons before between after input inputs told events hpass hpasses ih =>
      intro output source hwritten
      rcases ih output source hwritten with hbetween | ⟨hsource, houtput⟩
      · cases hpass with
        | skip hnone hevents => exact Or.inl hbetween
        | write hshown huntaken hwrite htold =>
            rcases List.mem_cons.mp hbetween with hnew | hbefore
            · cases hnew
              exact Or.inr ⟨List.mem_cons_self, rfl⟩
            · exact Or.inl hbefore
      · exact Or.inr ⟨List.mem_cons_of_mem _ hsource, houtput⟩

/-- What is written at one input is its output, if it has a document. -/
theorem Pass.outputs_eq {before after : Progress} {events : List Log.Event}
    (hpass : Pass settings before input events after) :
    Log.outputs events =
      if (document? settings before.disk input).isSome then [output settings input] else [] := by
  cases hpass with
  | skip hnone hevents => rw [hevents, hnone]; rfl
  | write hshown huntaken hwrite htold => rw [Log.outputs_append, htold, hshown]; rfl

/-- The outputs that are written are those of some of the inputs, each of them taken once and in
their order. -/
theorem Passes.exists_sources {before after : Progress} {events : List Log.Event}
    (hpasses : Passes settings before inputs events after) :
    ∃ sources : List Path, sources.Sublist inputs ∧
      Log.outputs events = sources.map (output settings) := by
  induction hpasses with
  | nil => exact ⟨[], .slnil, rfl⟩
  | cons hpass hpasses ih =>
      obtain ⟨sources, hsources, houtputs⟩ := ih
      rw [Log.outputs_append, hpass.outputs_eq, houtputs]
      split
      · exact ⟨_ :: sources, hsources.cons_cons _, rfl⟩
      · exact ⟨sources, hsources.cons _, rfl⟩

/-- Nothing happens to the disk but the writes that are told. -/
theorem Passes.exists_writes {before after : Progress} {events : List Log.Event}
    (hpasses : Passes settings before inputs events after) :
    ∃ writes, before.disk.writeAll writes = .ok after.disk ∧
      writes.map Prod.fst = Log.outputs events := by
  induction hpasses with
  | nil before => exact ⟨[], rfl, rfl⟩
  | @cons before between after input inputs told events hpass hpasses ih =>
      obtain ⟨writes, hwrites, htold⟩ := ih
      cases hpass with
      | skip hnone hevents =>
          exact ⟨writes, hwrites, by rw [htold, Log.outputs_append, hevents, List.nil_append]⟩
      | @write told shown changed hshown huntaken hwrite hnothing =>
          refine ⟨(output settings input, settings.format.render shown) :: writes, ?_, ?_⟩
          · exact Except.bind_eq_ok_iff.mpr ⟨changed, hwrite, hwrites⟩
          · rw [List.map_cons, htold, Log.outputs_append, Log.outputs_append, hnothing]
            rfl

/-- Every output that is told was written for an input with a document, when it was passed. -/
theorem Passes.exists_pass_of_mem_outputs {before after : Progress} {events : List Log.Event}
    (hpasses : Passes settings before inputs events after) {path : Path}
    (hpath : path ∈ Log.outputs events) :
    ∃ front input rest, inputs = front ++ input :: rest ∧ path = output settings input ∧
      ∃ told between event next, Passes settings before front told between ∧
        Pass settings between input event next ∧
        (document? settings between.disk input).isSome := by
  induction hpasses with
  | nil => cases hpath
  | @cons before between after input inputs told events hpass hpasses ih =>
      rw [Log.outputs_append] at hpath
      rcases List.mem_append.mp hpath with hfirst | hlater
      · rw [hpass.outputs_eq] at hfirst
        split at hfirst
        · rename_i hsome
          refine ⟨[], input, inputs, rfl, List.mem_singleton.mp hfirst, [], before, told, between, ?_⟩
          exact ⟨.nil before, hpass, hsome⟩
        · cases hfirst
      · obtain ⟨front, later, rest, rfl, hlater, more, place, event, next, hfront, hnext, hsome⟩ :=
          ih hlater
        exact ⟨input :: front, later, rest, rfl, hlater, _, place, event, next,
          .cons hpass hfront, hnext, hsome⟩

/-- What a run has done to a disk: it has written texts to outputs of some of the inputs, in their
order, each of these writes is told, and no output was written to twice. -/
structure Traced (settings : Settings) (disk : Disk) (inputs : List Path) (outcome : Outcome)
    (writes : List (Path × String)) : Prop where
  written : disk.writeAll writes = .ok outcome.disk
  told : writes.map Prod.fst = Log.outputs outcome.events
  distinct : (writes.map Prod.fst).Pairwise fun earlier later => earlier.same later = false
  sources : ∃ sources : List Path, sources.Sublist inputs ∧
    writes.map Prod.fst = sources.map (output settings)

theorem Passes.traced {events : List Log.Event} {after : Progress}
    (hpasses : Passes settings { written := [], disk } inputs events after)
    (failure : Option Failure) :
    ∃ writes, Traced settings disk inputs { disk := after.disk, events, failure } writes := by
  obtain ⟨writes, hwrites, htold⟩ := hpasses.exists_writes
  have hrecorded : after.written.map Prod.fst = (writes.map Prod.fst).reverse := by
    rw [htold]
    simpa using hpasses.recorded.outputs
  refine ⟨writes, hwrites, htold, ?_, htold ▸ hpasses.exists_sources⟩
  rw [← List.pairwise_reverse, ← hrecorded, List.pairwise_map]
  exact hpasses.recorded.distinct .nil

/-- Inputs that are passed leave the others to be published as if they had come first. -/
theorem Passes.publishFrom_append {before after : Progress} {events : List Log.Event}
    (hpasses : Passes settings before front events after) (rest : List Path) :
    (publishFrom settings before.written before.disk (front ++ rest)).disk =
        (publishFrom settings after.written after.disk rest).disk ∧
      (publishFrom settings before.written before.disk (front ++ rest)).failure =
        (publishFrom settings after.written after.disk rest).failure := by
  induction hpasses with
  | nil => exact ⟨rfl, rfl⟩
  | cons hpass hpasses ih =>
      cases hpass with
      | skip hnone hevents =>
          obtain ⟨events, -, heq⟩ := publishFrom_of_undocumented hnone
          rw [List.cons_append, heq]
          exact ih
      | write hshown huntaken hwrite htold =>
          obtain ⟨told, -, heq⟩ := publishFrom_of_documented hshown
          rw [List.cons_append, heq, huntaken, hwrite]
          exact ih

theorem passes_of_success {before : Progress}
    (hsuccess : (publishFrom settings before.written before.disk inputs).failure = none) :
    ∃ events after, Passes settings before inputs events after ∧
      after.disk = (publishFrom settings before.written before.disk inputs).disk := by
  have hends : Ends settings before inputs _ := publishFrom_ends before inputs
  generalize publishFrom settings before.written before.disk inputs = outcome at hends hsuccess ⊢
  cases hends with
  | done hpasses => exact ⟨_, _, hpasses, rfl⟩
  | stopped => cases hsuccess

theorem Passes.of_append {before after : Progress} {rest : List Path} {events : List Log.Event}
    (hpasses : Passes settings before (front ++ rest) events after) :
    ∃ told between, Passes settings before front told between := by
  induction front generalizing before events with
  | nil => exact ⟨[], before, .nil before⟩
  | cons input front ih =>
      cases hpasses with
      | cons hpass hpasses =>
          obtain ⟨told, between, hfront⟩ := ih hpasses
          exact ⟨_, between, .cons hpass hfront⟩

/-- Publishing passes the first ones of the inputs, and does and tells nothing else. -/
theorem publishFrom_passes (before : Progress) (inputs : List Path) :
    ∃ front told after, front <+: inputs ∧ Passes settings before front told after ∧
      after.disk = (publishFrom settings before.written before.disk inputs).disk ∧
      Log.outputs (publishFrom settings before.written before.disk inputs).events =
        Log.outputs told := by
  have hends : Ends settings before inputs _ := publishFrom_ends before inputs
  generalize publishFrom settings before.written before.disk inputs = outcome at hends ⊢
  cases hends with
  | done hpasses => exact ⟨inputs, _, _, List.prefix_rfl, hpasses, rfl, rfl⟩
  | @stopped front rest input events told after failure hinputs hpasses hstop htold =>
      refine ⟨front, events, after, ⟨input :: rest, hinputs.symm⟩, hpasses, rfl, ?_⟩
      rw [Log.outputs_append, htold, List.append_nil]

theorem publishFrom_keepsDirectories (written : List (Path × Path)) (disk : Disk)
    (inputs : List Path) :
    Disk.KeepsDirectories disk (publishFrom settings written disk inputs).disk := by
  obtain ⟨front, told, after, -, hpasses, hdisk, -⟩ : ∃ front told after, front <+: inputs ∧
      Passes settings { written, disk } front told after ∧ _ :=
    publishFrom_passes _ inputs
  exact hdisk ▸ hpasses.keepsDirectories

section Written

variable {folder : Location} {source : Path} {before after : Progress} {events : List Log.Event}
  (hdirectory : before.disk.follow settings.directory = .ok folder)
  (hfolder : before.disk.get? folder = some .directory)
  (hwritten : (output settings input, source) ∈ before.written)

include hdirectory hfolder hwritten

/-- The output of an input that is passed is not the place of any output that was written before. -/
theorem Pass.get?_of_written {later : Path} (hpass : Pass settings before later events after) :
    after.disk.get? (destination settings folder input) =
      before.disk.get? (destination settings folder input) := by
  cases hpass with
  | skip hnone hevents => rfl
  | write hshown huntaken hwrite htold =>
      obtain ⟨hplace, rfl⟩ := write_output_eq_ok hdirectory hfolder hwrite
      have hdiffer : (output settings input).same (output settings later) = false := by
        simpa using List.find?_eq_none.mp huntaken _ hwritten
      refine Disk.get?_put_of_ne before.disk (fun hsame => ?_) _
      exact fileName_ne_of_not_same settings hdiffer ((destination_inj settings).mp hsame)

theorem Passes.get?_of_written (hpasses : Passes settings before inputs events after) :
    after.disk.get? (destination settings folder input) =
      before.disk.get? (destination settings folder input) := by
  induction hpasses with
  | nil => rfl
  | @cons before between after later inputs told events hpass hpasses ih =>
      have hkeeps := hpass.keepsDirectories
      rw [ih (hkeeps.follow hdirectory) (hkeeps.directory folder hfolder)
        (hpass.written_subset hwritten)]
      exact hpass.get?_of_written hdirectory hfolder hwritten

end Written

/-- A document that has been written stays as it is, whatever is published after it. -/
theorem get?_publishFrom_put {folder : Location}
    (hdirectory : disk.follow settings.directory = .ok folder)
    (hfolder : disk.get? folder = some .directory)
    (hplace : disk.get? (destination settings folder input) ≠ some .directory) (entry : Entry)
    (written : List (Path × Path)) (inputs : List Path) :
    (publishFrom settings ((output settings input, input) :: written)
        (disk.put (destination settings folder input) entry) inputs).disk.get?
          (destination settings folder input) = some entry := by
  have hkeeps := Disk.KeepsDirectories.put hplace entry
  let before : Progress :=
    { written := (output settings input, input) :: written,
      disk := disk.put (destination settings folder input) entry }
  obtain ⟨front, told, after, -, hpasses, hdisk, -⟩ : ∃ front told after, front <+: inputs ∧
      Passes settings before front told after ∧ _ :=
    publishFrom_passes before inputs
  rw [← hdisk, hpasses.get?_of_written (hkeeps.follow hdirectory)
    (hkeeps.directory folder hfolder) List.mem_cons_self]
  exact Disk.get?_put_self disk (by simp [destination]) entry

theorem publishFrom_traced (disk : Disk) (inputs : List Path) :
    ∃ writes, Traced settings disk inputs (publishFrom settings [] disk inputs) writes := by
  obtain ⟨front, events, after, hfront, hpasses, hdisk, houtputs⟩ : ∃ front events after,
      front <+: inputs ∧ Passes settings { written := [], disk } front events after ∧ _ :=
    publishFrom_passes _ inputs
  obtain ⟨writes, htraced⟩ := hpasses.traced none
  obtain ⟨sources, hsources, hwritten⟩ := htraced.sources
  exact ⟨writes, hdisk ▸ htraced.written, htraced.told.trans houtputs.symm, htraced.distinct,
    sources, hsources.trans hfront.sublist, hwritten⟩

end Publication

end StyleDoc
