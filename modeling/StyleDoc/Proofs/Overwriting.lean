import StyleDoc.Proofs.Publishing
import StyleDoc.Proofs.Text.Scan

/-!
Which inputs a run may overwrite. The only files that change are those that a written output leads
to, and an output may be the path of an input, as an input can have any name. Its name then ends as
the names of documents do; hence no input that ends as a stylesheet is ever overwritten, and a
search of a directory finds no others.
-/

namespace StyleDoc

namespace Path

theorem eq_of_splitExtension {name extension other : String} (hdot : '.' ∉ extension.toList)
    (hother : (splitExtension (name ++ "." ++ extension)).2 = some other) : other = extension := by
  have hrun : ∀ c ∈ extension.toList.reverse, decide (c ≠ '.') = true := by
    intro c hmem
    simpa using ne_of_mem_of_not_mem (List.mem_reverse.mp hmem) hdot
  have hstop : ∀ c ∈ ('.' :: name.toList.reverse).head?, decide (c ≠ '.') = false := by simp
  have hbackwards : (name ++ "." ++ extension).toList.reverse =
      extension.toList.reverse ++ '.' :: name.toList.reverse := by simp
  unfold splitExtension at hother
  dsimp only at hother
  rw [hbackwards, Text.dropWhile_append_of_stop hrun hstop,
    Text.takeWhile_append_of_stop hrun hstop] at hother
  split at hother
  · cases hother
  · cases hother
  · rw [← Option.some.inj hother, List.reverse_reverse, String.ofList_toList]

end Path

namespace Publication

variable (settings : Settings)

/-- A document is never named like a stylesheet. -/
theorem isStylesheet_of_fileName? {input source : Path}
    (hname : input.fileName? = some (fileName settings source)) :
    Inputs.isStylesheet input = false := by
  have hdot : '.' ∉ settings.format.extension.toList := by
    cases settings.format <;> decide
  rw [Inputs.isStylesheet, Path.extension?, hname, Option.bind_some]
  cases hextension : (Path.splitExtension (fileName settings source)).2 with
  | none => rfl
  | some extension =>
      rw [Path.eq_of_splitExtension hdot hextension]
      cases settings.format <;> decide

/-- An output can lead to an input only if the input does not end as a stylesheet. -/
theorem isStylesheet_of_follow_output {disk : Disk} {folder place : Location} {input source : Path}
    (hdirectory : disk.follow settings.directory = .ok folder)
    (hfolder : disk.get? folder = some .directory) (hinput : disk.follow input = .ok place)
    (houtput : disk.follow (output settings source) = .ok place) :
    Inputs.isStylesheet input = false := by
  rw [follow_output settings hdirectory hfolder] at houtput
  obtain rfl := Except.ok.inj houtput
  cases hname : input.fileName? with
  | none => rw [Inputs.isStylesheet, Path.extension?, hname]; rfl
  | some name =>
      have hlast := Disk.getLast?_of_follow hname hinput
      rw [destination, List.getLast?_concat] at hlast
      exact isStylesheet_of_fileName? settings (hname.trans hlast.symm)

variable {settings} in
/-- An input that is no output stays as it was, whatever publishing meets. -/
theorem publish_keeps_input {disk : Disk} {inputs : List String} {paths : List Path} {input : Path}
    {place : Location} {bytes : ByteArray}
    (hpaths : (Inputs.expand (prepared settings disk) inputs).2 = .ok paths)
    (hinput : (prepared settings disk).follow input = .ok place)
    (hfile : (prepared settings disk).get? place = some (.file bytes)) :
    (publish settings disk inputs).disk.get? place = some (.file bytes) ∨
      Inputs.isStylesheet input = false ∧ ∃ source ∈ paths,
        output settings source ∈ Log.outputs (publish settings disk inputs).events ∧
        (prepared settings disk).follow (output settings source) = .ok place := by
  obtain ⟨cause, hpublish⟩ | ⟨folder, events, hdirectory, hfolder, -, -⟩ :=
    publish_of_expand hpaths
  · rw [hpublish]
    exact Or.inl hfile
  · obtain ⟨writes, htraced⟩ : ∃ writes, Traced settings _ _ _ writes :=
      publish_traced disk inputs
    rw [hpaths] at htraced
    by_cases hfree : ∀ write ∈ writes, ∃ target,
        (prepared settings disk).follow write.1 = .ok target ∧ place ≠ target
    · rw [Disk.get?_of_writeAll htraced.written hfree]
      exact Or.inl hfile
    · push Not at hfree
      obtain ⟨write, hwrite, hplace⟩ := hfree
      obtain ⟨sources, hsources, houtputs⟩ := htraced.sources
      obtain ⟨source, hmem, houtput⟩ := List.mem_map.mp (houtputs ▸ List.mem_map_of_mem hwrite)
      have hsource := hsources.subset hmem
      have hfollow := follow_output settings hdirectory hfolder source
      have hsame : place = destination settings folder source := hplace _ (houtput ▸ hfollow)
      rw [← hsame] at hfollow
      have htold : output settings source ∈ Log.outputs (publish settings disk inputs).events := by
        rw [← htraced.told, houtput]
        exact List.mem_map_of_mem hwrite
      have hname := isStylesheet_of_follow_output settings hdirectory hfolder hinput hfollow
      exact Or.inr ⟨hname, source, hsource, htold, hfollow⟩

end Publication

namespace Program

open Publication

/-- A run on files changes an input only by writing a document to that very file, and never one that
ends as a stylesheet. -/
theorem run_keeps_inputs {options : Options} {surroundings : Surroundings} {directory : String}
    {format : Format} {paths : List Path} (hinputs : options.inputs ≠ [])
    (houtput : options.output = some directory)
    (hformat : Format.ofName options.format = .ok format)
    (hpaths : (Inputs.expand (prepared (settings options directory format) surroundings.disk)
      options.inputs).2 = .ok paths) :
    ∀ input ∈ paths, ∃ place bytes,
      (prepared (settings options directory format) surroundings.disk).follow input = .ok place ∧
      surroundings.disk.get? place = some (.file bytes) ∧
      ((run options surroundings).disk.get? place = some (.file bytes) ∨
        Inputs.isStylesheet input = false ∧ ∃ source ∈ paths,
          output (settings options directory format) source ∈
            Log.outputs (effect options surroundings).events ∧
          (prepared (settings options directory format) surroundings.disk).follow
            (output (settings options directory format) source) = .ok place) := by
  intro input hinput
  have heffect := effect_of_inputs surroundings hinputs houtput hformat
  obtain ⟨place, bytes, hplace, hfile⟩ :=
    Disk.isFile_iff.mp (Inputs.isFile_of_mem_expand hpaths input hinput)
  have hadds := (Disk.makeDirectories_makes surroundings.disk { text := directory }).adds
  refine ⟨place, bytes, hplace, hadds.noFile place bytes hfile, ?_⟩
  simp only [run, heffect]
  exact publish_keeps_input hpaths hplace hfile

/-- Documents that go where their inputs are, one of them under the name of its input. -/
def noteOptions : Options :=
  { inputs := ["notes.json", "b.scss"], output := some "." }

def noteSurroundings : Surroundings :=
  holding [(["notes.json"], "@mixin note {}\n".toUTF8), (["b.scss"], "@mixin b {}\n".toUTF8)]

theorem run_overwrites_input :
    (Inputs.expand (prepared (settings noteOptions "." .json) noteSurroundings.disk)
      noteOptions.inputs).2 = .ok [⟨"b.scss"⟩, ⟨"notes.json"⟩] ∧
    noteSurroundings.disk.lookup? ⟨"notes.json"⟩ = some (.file "@mixin note {}\n".toUTF8) ∧
    (run noteOptions noteSurroundings).disk.lookup? ⟨"notes.json"⟩ ≠
      some (.file "@mixin note {}\n".toUTF8) := by
  decide +kernel

theorem run_keeps_inputs_notes :
    (Inputs.expand (prepared (settings noteOptions "." .json) noteSurroundings.disk)
      noteOptions.inputs).2 = .ok [⟨"b.scss"⟩, ⟨"notes.json"⟩] ∧
    ∃ place bytes,
      (prepared (settings noteOptions "." .json) noteSurroundings.disk).follow ⟨"b.scss"⟩ =
        .ok place ∧
      noteSurroundings.disk.get? place = some (.file bytes) ∧
      (run noteOptions noteSurroundings).disk.get? place = some (.file bytes) := by
  have hpaths : (Inputs.expand (prepared (settings noteOptions "." .json) noteSurroundings.disk)
      noteOptions.inputs).2 = .ok [⟨"b.scss"⟩, ⟨"notes.json"⟩] := by
    decide +kernel
  obtain ⟨place, bytes, hplace, hfile, hkept | ⟨hname, -⟩⟩ :=
    run_keeps_inputs (by decide) rfl rfl hpaths ⟨"b.scss"⟩ List.mem_cons_self
  · exact ⟨hpaths, place, bytes, hplace, hfile, hkept⟩
  · cases hname

end Program

end StyleDoc
