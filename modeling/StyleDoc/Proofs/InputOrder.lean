import StyleDoc.Proofs.Publishing

/-!
Inputs count as the set of paths they stand for. Whether publishing succeeds and what it leaves on
the disk is settled by the components of the expanded paths; these come in their own order and each
of them once, wherever the inputs stand and however often they are given. Paths that differ in
their components are different inputs, even where they lead to the same file.
-/

namespace StyleDoc

namespace Publication

variable {settings : Settings}

/-- Two outcomes with the same disk and the same outputs written to, both of a failure or both of a
success. -/
structure Alike (outcome other : Outcome) : Prop where
  disk : outcome.disk = other.disk
  outputs : Log.outputs outcome.events = Log.outputs other.events
  failure : outcome.failure.isSome = other.failure.isSome

theorem Alike.after {outcome other : Outcome} {events told : List Log.Event}
    (halike : Alike outcome other) (houtputs : Log.outputs events = Log.outputs told) :
    Alike (outcome.after events) (other.after told) where
  disk := halike.disk
  outputs := by
    rw [Outcome.outputs_after, Outcome.outputs_after, houtputs, halike.outputs]
  failure := halike.failure

/-- Whether an output is taken does not depend on which inputs the outputs are recorded with. -/
theorem isSome_find?_congr {written taken : List (Path × Path)}
    (htaken : written.map Prod.fst = taken.map Prod.fst) (output : Path) :
    (written.find? (·.1.same output)).isSome = (taken.find? (·.1.same output)).isSome := by
  have hmap (outputs : List (Path × Path)) : (outputs.find? (·.1.same output)).isSome =
      ((outputs.map Prod.fst).find? (·.same output)).isSome := by
    rw [List.find?_map, Option.isSome_map]
    rfl
  rw [hmap, hmap, htaken]

/-- How the inputs are spelled makes no difference to the outputs and the disk, nor to success. -/
theorem publishFrom_alike {disk : Disk} {inputs others : List Path}
    {written taken : List (Path × Path)}
    (hcomponents : inputs.map Path.components = others.map Path.components)
    (hinputs : ∀ input ∈ inputs, ∃ place, disk.follow input = .ok place)
    (hothers : ∀ other ∈ others, ∃ place, disk.follow other = .ok place)
    (htaken : written.map Prod.fst = taken.map Prod.fst) :
    Alike (publishFrom settings written disk inputs) (publishFrom settings taken disk others) := by
  induction inputs generalizing others disk written taken with
  | nil =>
      obtain rfl := List.map_eq_nil_iff.mp hcomponents.symm
      exact ⟨rfl, rfl, rfl⟩
  | cons input inputs ih =>
      obtain ⟨other, others, rfl, hsame, hrest⟩ := List.map_eq_cons_iff.mp hcomponents.symm
      obtain ⟨⟨place, hplace⟩, hinputs⟩ := List.forall_mem_cons.mp hinputs
      obtain ⟨⟨target, htarget⟩, hothers⟩ := List.forall_mem_cons.mp hothers
      have hdocument := document?_congr settings hsame htarget hplace
      have houtput : output settings other = output settings input := output_congr settings hsame
      cases hshown : document? settings disk input with
      | none =>
          obtain ⟨events, hevents, heq⟩ := publishFrom_of_undocumented hshown
          obtain ⟨told, htold, hother⟩ := publishFrom_of_undocumented (hdocument.trans hshown)
          rw [heq, hother]
          exact (ih hrest.symm hinputs hothers htaken).after (hevents.trans htold.symm)
      | some shown =>
          obtain ⟨events, hevents, heq⟩ := publishFrom_of_documented hshown
          obtain ⟨told, htold, hother⟩ := publishFrom_of_documented (hdocument.trans hshown)
          have houtputs := hevents.trans htold.symm
          have hfind := isSome_find?_congr htaken (output settings input)
          rw [heq, hother, houtput]
          cases hfound : written.find? (·.1.same (output settings input)) with
          | some found =>
              rw [hfound, Option.isSome_some] at hfind
              obtain ⟨again, hagain⟩ := Option.isSome_iff_exists.mp hfind.symm
              rw [hagain]
              exact ⟨rfl, houtputs, rfl⟩
          | none =>
              rw [hfound, Option.isSome_none, eq_comm, Option.isSome_eq_false_iff,
                Option.isNone_iff_eq_none] at hfind
              rw [hfind]
              cases hwrite : disk.write (output settings input) (settings.format.render shown) with
              | error cause => exact ⟨rfl, houtputs, rfl⟩
              | ok changed =>
                  refine (ih hrest.symm (Disk.forall_follow_of_write hwrite hinputs)
                    (Disk.forall_follow_of_write hwrite hothers) ?_).after ?_
                  · rw [List.map_cons, List.map_cons, htaken]
                  · rw [Log.outputs_append, Log.outputs_append, houtputs]

/-- Publishing depends on the inputs only through what they find and whether they are valid. -/
theorem publish_alike {disk : Disk} {inputs others : List String}
    (hvalid : (∀ input ∈ inputs, Inputs.IsValid (prepared settings disk) input) ↔
      ∀ other ∈ others, Inputs.IsValid (prepared settings disk) other)
    (hfinds : ∀ components, (∃ input ∈ inputs,
        Inputs.Finds (prepared settings disk) input components) ↔
      ∃ other ∈ others, Inputs.Finds (prepared settings disk) other components) :
    Alike (publish settings disk inputs) (publish settings disk others) := by
  cases hmade : (disk.makeDirectories settings.directory).2 with
  | some cause =>
      rw [publish_of_unprepared inputs hmade, publish_of_unprepared others hmade]
      exact ⟨rfl, rfl, rfl⟩
  | none =>
      rw [← Inputs.exists_expand_iff, ← Inputs.exists_expand_iff] at hvalid
      have houtputs : Log.outputs (Inputs.expand (prepared settings disk) inputs).1 =
          Log.outputs (Inputs.expand (prepared settings disk) others).1 := by
        rw [Inputs.outputs_expand, Inputs.outputs_expand]
      rw [publish_of_prepared inputs hmade, publish_of_prepared others hmade]
      dsimp only
      cases hpaths : (Inputs.expand (prepared settings disk) inputs).2 with
      | error invalid =>
          cases hfound : (Inputs.expand (prepared settings disk) others).2 with
          | error invalid => exact ⟨rfl, houtputs, rfl⟩
          | ok found =>
              obtain ⟨paths, hok⟩ := hvalid.mpr ⟨found, hfound⟩
              cases hpaths.symm.trans hok
      | ok paths =>
          obtain ⟨found, hfound⟩ := hvalid.mp ⟨paths, hpaths⟩
          rw [hfound]
          have hcomponents := Inputs.components_eq_of_expand hpaths hfound hfinds
          have hfiles {inputs : List String} {paths : List Path}
              (hpaths : (Inputs.expand (prepared settings disk) inputs).2 = .ok paths) :
              ∀ path ∈ paths, ∃ place, (prepared settings disk).follow path = .ok place :=
            fun path hpath =>
              Disk.exists_follow_of_isFile (Inputs.isFile_of_mem_expand hpaths path hpath)
          exact (publishFrom_alike hcomponents (hfiles hpaths) (hfiles hfound) rfl).after houtputs

end Publication

namespace Program

open Publication

/-- Two calls that end with the same status, have written to the same outputs in the same order and
leave the same disk. -/
structure EndsAlike (options other : Options) (surroundings : Surroundings) : Prop where
  code : (run options surroundings).code = (run other surroundings).code
  disk : (run options surroundings).disk = (run other surroundings).disk
  outputs : Log.outputs (effect options surroundings).events =
    Log.outputs (effect other surroundings).events

theorem endsAlike_of_publish {options : Options} {inputs : List String}
    {surroundings : Surroundings} (hoptions : options.inputs ≠ []) (hinputs : inputs ≠ [])
    (halike : ∀ directory format, options.output = some directory →
      Format.ofName options.format = .ok format →
      Alike (Publication.publish (settings options directory format) surroundings.disk inputs)
        (Publication.publish (settings options directory format) surroundings.disk
          options.inputs)) :
    EndsAlike { options with inputs } options surroundings := by
  obtain ⟨hdisk, houtputs, hfailure⟩ :
      (effect { options with inputs } surroundings).disk = (effect options surroundings).disk ∧
      Log.outputs (effect { options with inputs } surroundings).events =
        Log.outputs (effect options surroundings).events ∧
      (effect { options with inputs } surroundings).failure.isSome =
        (effect options surroundings).failure.isSome := by
    rw [effect, effect, if_neg hoptions, if_neg hinputs, publish, publish]
    cases houtput : options.output with
    | none => exact ⟨rfl, rfl, rfl⟩
    | some directory =>
        cases hformat : Format.ofName options.format with
        | error error => exact ⟨rfl, rfl, rfl⟩
        | ok format =>
            obtain ⟨hdisk, houtputs, hfailure⟩ := halike directory format houtput hformat
            exact ⟨hdisk, houtputs, hfailure⟩
  exact ⟨by rw [run, run, hfailure], hdisk, houtputs⟩

/-- The order and the number of times in which inputs are given make no difference to whether a run
succeeds, to the outputs it writes and to what it leaves on the disk. -/
theorem run_of_same_inputs {options : Options} {inputs : List String} (surroundings : Surroundings)
    (hsame : ∀ text, text ∈ inputs ↔ text ∈ options.inputs) :
    EndsAlike { options with inputs } options surroundings := by
  by_cases hoptions : options.inputs = []
  · have hinputs : inputs = options.inputs := by
      rw [hoptions, List.eq_nil_iff_forall_not_mem]
      intro text hmem
      rw [hsame, hoptions] at hmem
      cases hmem
    rw [hinputs]
    exact ⟨rfl, rfl, rfl⟩
  · have hinputs : inputs ≠ [] := by
      obtain ⟨text, rest, hcons⟩ := List.exists_cons_of_ne_nil hoptions
      exact List.ne_nil_of_mem ((hsame text).mpr (hcons ▸ List.mem_cons_self))
    refine endsAlike_of_publish hoptions hinputs fun directory format _ _ => ?_
    exact publish_alike (by simp only [hsame]) fun components => by simp only [hsame]

/-- Two spellings of one path, and a title that is given twice. -/
def mixedOptions : Options :=
  { inputs := ["a/_math.scss", "b//math.scss", "b/math.scss"], output := some "out" }

def mixedSurroundings : Surroundings :=
  holding [(["a", "_math.scss"], "@mixin half {}\n".toUTF8),
    (["b", "math.scss"], "@mixin third {}\n".toUTF8)]

/-- The same inputs, of which another spelling comes first. -/
def mixedInputs : List String :=
  ["b/math.scss", "b//math.scss", "b/math.scss", "a/_math.scss", "b//math.scss"]

theorem run_of_same_inputs_mixed :
    (effect mixedOptions mixedSurroundings).failure =
      some (.sameOutput ⟨"a/_math.scss"⟩ ⟨"b//math.scss"⟩ ⟨"out/math.json"⟩) ∧
    (effect { mixedOptions with inputs := mixedInputs } mixedSurroundings).failure =
      some (.sameOutput ⟨"a/_math.scss"⟩ ⟨"b/math.scss"⟩ ⟨"out/math.json"⟩) ∧
    EndsAlike { mixedOptions with inputs := mixedInputs } mixedOptions mixedSurroundings := by
  refine ⟨by decide +kernel, by decide +kernel,
    run_of_same_inputs mixedSurroundings fun text => ?_⟩
  simp only [mixedInputs, mixedOptions, List.mem_cons, List.not_mem_nil, or_false]
  tauto

end Program

end StyleDoc
