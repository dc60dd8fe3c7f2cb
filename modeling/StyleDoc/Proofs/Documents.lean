import StyleDoc.Publication
import StyleDoc.Proofs.Files.Components
import StyleDoc.Proofs.Files.Names

/-!
The documents of inputs and where they belong. The title of a document and the name of its file are
read off the components of the input alone, and so is the document itself as long as the input can
be followed. Outputs in one directory are told apart by the titles of their documents.
-/

namespace StyleDoc

namespace Publication

variable (settings : Settings)

/-- A stem without the underscore at its start, unless there is none or nothing else. -/
def IsTitle (stem name : String) : Prop :=
  (stem = "_" ++ name ∧ name ≠ "") ∨ (stem = name ∧ ∀ rest, stem = "_" ++ rest → rest = "")

theorem title_isTitle (input : Path) : IsTitle input.stem (title input) := by
  unfold title
  split
  · rename_i c rest hstem
    refine Or.inl ⟨String.toList_inj.mp ?_, by simp⟩
    rw [hstem, String.toList_append, String.toList_ofList]
    simp
  · rename_i hstem
    refine Or.inr ⟨rfl, fun rest hrest => ?_⟩
    by_contra hne
    obtain ⟨c, more, hmore⟩ := List.exists_cons_of_ne_nil
      (fun hnil => hne (String.toList_eq_nil_iff.mp hnil) : rest.toList ≠ [])
    exact hstem c more (by rw [hrest, String.toList_append, hmore]; rfl)

/-- A file that has a name has a title. -/
theorem title_ne_empty {input : Path} {name : String} (hname : input.fileName? = some name)
    (hne : name ≠ "") : title input ≠ "" := by
  have hstem : input.stem ≠ "" := by
    rw [Path.stem, hname]
    exact Path.splitExtension_ne_empty hne
  rcases title_isTitle input with ⟨-, htitle⟩ | ⟨hsame, -⟩
  · exact htitle
  · rwa [← hsame]

/-- The name of the file that the document of an input is written to. -/
def fileName (input : Path) : String :=
  s!"{title input}.{settings.format.extension}"

theorem toList_fileName (input : Path) :
    (fileName settings input).toList =
      (title input).toList ++ '.' :: settings.format.extension.toList := by
  simp [fileName, ToString.toString]

theorem slash_not_mem_title (input : Path) : '/' ∉ (title input).toList := by
  have hstem := Path.slash_not_mem_stem input
  rcases title_isTitle input with ⟨hsame, -⟩ | ⟨hsame, -⟩
  · rw [hsame, String.toList_append] at hstem
    exact fun hmem => hstem (List.mem_append_right _ hmem)
  · rwa [hsame] at hstem

theorem slash_not_mem_fileName (input : Path) : '/' ∉ (fileName settings input).toList := by
  have hextension : '/' ∉ '.' :: settings.format.extension.toList := by
    cases settings.format <;> decide
  rw [toList_fileName]
  exact fun hmem => (List.mem_append.mp hmem).elim (slash_not_mem_title input) hextension

/-- The name is longer than any of the names that lead elsewhere. -/
theorem fileName_ne_special (input : Path) :
    fileName settings input ≠ "" ∧ fileName settings input ≠ "." ∧
      fileName settings input ≠ ".." := by
  have hextension : 2 ≤ settings.format.extension.toList.length := by
    cases settings.format <;> decide
  have hlong : 2 < (fileName settings input).toList.length := by
    rw [toList_fileName, List.length_append, List.length_cons]
    omega
  refine ⟨?_, ?_, ?_⟩ <;>
  · intro hname
    rw [hname] at hlong
    exact absurd hlong (by decide)

/-- The document of an input, if the input is a file of valid text with something to show. -/
def document? (disk : Disk) (input : Path) : Option Document :=
  match disk.lookup? input with
  | some (.file bytes) =>
      match String.fromUTF8? bytes with
      | some content =>
          let items := Item.visible settings.showPrivate (Stylesheet.items content)
          if items = [] then none else some { title := title input, items }
      | none => none
  | _ => none

theorem document?_of_read_ok {disk : Disk} {input : Path} {content : String}
    (hread : disk.read input = .ok content) :
    document? settings disk input =
      let document := document settings input (Stylesheet.sections content)
      if document.items = [] then none else some document := by
  obtain ⟨bytes, hfile, htext⟩ := Disk.read_eq_ok_iff.mp hread
  simp only [document?, hfile, htext]
  rfl

theorem document?_of_read_error {disk : Disk} {input : Path} {cause : FileError}
    (hread : disk.read input = .error cause) : document? settings disk input = none := by
  unfold document?
  split
  · rename_i bytes hfile
    split
    · rename_i content htext
      rw [Disk.read_eq_ok_iff.mpr ⟨bytes, hfile, htext⟩] at hread
      cases hread
    · rfl
  · rfl

/-- Where the document of an input belongs in a directory. -/
def destination (folder : Location) (input : Path) : Location :=
  folder ++ [fileName settings input]

theorem destination_inj {folder : Location} {input other : Path} :
    destination settings folder input = destination settings folder other ↔
      fileName settings input = fileName settings other := by
  simp [destination]

/-- Outputs in one directory are only told apart by their names. -/
theorem fileName_ne_of_not_same {input other : Path}
    (hdiffer : (output settings input).same (output settings other) = false) :
    fileName settings input ≠ fileName settings other := by
  intro hname
  have houtput : output settings input = output settings other :=
    congrArg settings.directory.join hname
  simp [houtput, Path.same] at hdiffer

theorem follow_output {disk : Disk} {folder : Location}
    (hdirectory : disk.follow settings.directory = .ok folder)
    (hfolder : disk.get? folder = some .directory) (input : Path) :
    disk.follow (output settings input) = .ok (destination settings folder input) :=
  Disk.follow_join hdirectory hfolder (slash_not_mem_fileName settings input)
    (fileName_ne_special settings input)

theorem write_output_eq {disk : Disk} {folder : Location}
    (hdirectory : disk.follow settings.directory = .ok folder)
    (hfolder : disk.get? folder = some .directory) (input : Path) (text : String) :
    disk.write (output settings input) text =
      if disk.get? (destination settings folder input) = some .directory then .error .isDirectory
      else .ok (disk.put (destination settings folder input) (.file text.toUTF8)) :=
  Disk.write_of_follow (follow_output settings hdirectory hfolder input) text

variable {settings} in
theorem write_output_eq_ok {disk changed : Disk} {folder : Location} {input : Path} {text : String}
    (hdirectory : disk.follow settings.directory = .ok folder)
    (hfolder : disk.get? folder = some .directory)
    (hwrite : disk.write (output settings input) text = .ok changed) :
    disk.get? (destination settings folder input) ≠ some .directory ∧
      changed = disk.put (destination settings folder input) (.file text.toUTF8) := by
  rw [write_output_eq settings hdirectory hfolder] at hwrite
  split at hwrite
  · cases hwrite
  · rename_i hplace
    exact ⟨hplace, (Except.ok.inj hwrite).symm⟩

/-- No output that would be written for one of the inputs is itself an input. -/
def OutputsApart (disk : Disk) (inputs : List Path) : Prop :=
  ∀ source ∈ inputs, (document? settings disk source).isSome →
    ∀ input ∈ inputs, disk.follow (output settings source) ≠ disk.follow input

theorem fileName_inj {input other : Path} :
    fileName settings input = fileName settings other ↔ title input = title other := by
  rw [← String.toList_inj, toList_fileName, toList_fileName, List.append_cancel_right_eq,
    String.toList_inj]

/-- Outputs in one directory lead to different places unless their names are the same. -/
theorem fileName_eq_of_same {disk : Disk} {folder : Location} {input other : Path}
    (hdirectory : disk.follow settings.directory = .ok folder)
    (hfolder : disk.get? folder = some .directory)
    (hsame : (output settings input).same (output settings other) = true) :
    fileName settings input = fileName settings other := by
  have hplace := Disk.eq_of_follow_of_components_eq (of_decide_eq_true hsame)
    (follow_output settings hdirectory hfolder input)
    (follow_output settings hdirectory hfolder other)
  exact (destination_inj settings).mp hplace

section Spelling

variable {input other : Path}

theorem title_congr (hcomponents : input.components = other.components) :
    title input = title other := by
  have hname : input.fileName? = other.fileName? := by
    rw [Path.fileName?, Path.fileName?, hcomponents]
  have hstem : input.stem = other.stem := by
    rw [Path.stem, Path.stem, hname]
  unfold title
  rw [hstem]

theorem output_congr (hcomponents : input.components = other.components) :
    output settings input = output settings other := by
  rw [output, output, title_congr hcomponents]

theorem document?_congr {disk : Disk} {place target : Location}
    (hcomponents : input.components = other.components) (hplace : disk.follow input = .ok place)
    (htarget : disk.follow other = .ok target) :
    document? settings disk input = document? settings disk other := by
  obtain rfl := Disk.eq_of_follow_of_components_eq hcomponents hplace htarget
  simp only [document?, Disk.lookup?, hplace, htarget, title_congr hcomponents]

end Spelling

end Publication

end StyleDoc
