import StyleDoc.Proofs.Files.Expansion
import StyleDoc.Proofs.Files.Making

/-!
The shape of a disk: where there are files and where there are directories. Which paths can be
followed, what a directory holds and what a pattern matches are all settled by the shape, and so is
what inputs are expanded to. The contents of files only come into it when a file is read.
-/

namespace StyleDoc

def Entry.isDirectory : Entry → Bool
  | .directory => true
  | .file _ => false

namespace Disk

theorem isSome_get?_iff {disk : Disk} {place : Location} (hplace : place ≠ []) :
    (disk.get? place).isSome ↔ ∃ entry, (place, entry) ∈ disk.entries := by
  rw [get?_of_ne_nil disk hplace, List.lookup_isSome_iff]
  constructor
  · rintro ⟨⟨found, entry⟩, hmem, hfound⟩
    exact ⟨entry, beq_iff_eq.mp hfound ▸ hmem⟩
  · rintro ⟨entry, hmem⟩
    exact ⟨_, hmem, beq_self_eq_true place⟩

/-- What a directory holds are the names of the places directly inside it. -/
theorem mem_children_iff {disk : Disk} {path : Path} {name : String} :
    name ∈ disk.children path ↔
      ∃ place, disk.follow path = .ok place ∧ (disk.get? (place ++ [name])).isSome := by
  unfold children
  cases hfollow : disk.follow path with
  | error error => simp
  | ok place =>
      have hne : place ++ [name] ≠ [] := by simp
      simp only [Except.ok.injEq, exists_eq_left', isSome_get?_iff hne, List.mem_filterMap]
      constructor
      · rintro ⟨⟨other, entry⟩, hmem, hname⟩
        split at hname
        · rename_i hinside
          obtain ⟨front, rfl⟩ := List.getLast?_eq_some_iff.mp hname
          obtain rfl : front = place := by simpa using hinside
          exact ⟨entry, hmem⟩
        · cases hname
      · rintro ⟨entry, hmem⟩
        exact ⟨_, hmem, by simp⟩

theorem mem_descendants_iff {disk : Disk} {path : Path} {names : Location} :
    names ∈ disk.descendants path ↔
      ∃ place, disk.follow path = .ok place ∧ names ≠ [] ∧
        (disk.get? (place ++ names)).isSome := by
  unfold descendants
  cases hfollow : disk.follow path with
  | error error => simp
  | ok place =>
      simp only [Except.ok.injEq, exists_eq_left', List.mem_filterMap]
      constructor
      · rintro ⟨⟨other, entry⟩, hmem, hnames⟩
        split at hnames
        · rename_i hbelow
          rw [Bool.and_eq_true, List.isPrefixOf_iff_prefix, decide_eq_true_iff] at hbelow
          obtain ⟨⟨rest, rfl⟩, hne⟩ := hbelow
          obtain rfl : rest = names := by simpa using hnames
          have hrest : rest ≠ [] := by
            rintro rfl
            exact hne (List.append_nil place)
          exact ⟨hrest, (isSome_get?_iff (by simp [hrest])).mpr ⟨entry, hmem⟩⟩
        · cases hnames
      · rintro ⟨hne, hsome⟩
        obtain ⟨entry, hmem⟩ := (isSome_get?_iff (by simp [hne])).mp hsome
        exact ⟨_, hmem, by simp [hne]⟩

theorem step_eq_shape (disk : Disk) (place : Location) (segment : String) :
    disk.step place segment =
      match (disk.get? place).map Entry.isDirectory with
      | none => .error .missing
      | some false => .error .notDirectory
      | some true => .ok (advance place segment) := by
  unfold step advance
  rcases disk.get? place with _ | _ | _
  · rfl
  · dsimp [Entry.isDirectory]
    split
    · rfl
    · split <;> rfl
  · rfl

theorem isFile_eq_shape (disk : Disk) (path : Path) :
    disk.isFile path = ((disk.lookup? path).map Entry.isDirectory == some false) := by
  unfold isFile
  rcases disk.lookup? path with _ | _ | _ <;> rfl

theorem isDirectory_eq_shape (disk : Disk) (path : Path) :
    disk.isDirectory path = ((disk.lookup? path).map Entry.isDirectory == some true) := by
  unfold isDirectory
  rcases disk.lookup? path with _ | _ | _ <;> rfl

/-- Disks with directories at the same places and files at the same places. -/
structure SameShape (disk other : Disk) : Prop where
  here : other.here = disk.here
  shape : ∀ place, (other.get? place).map Entry.isDirectory = (disk.get? place).map Entry.isDirectory

namespace SameShape

variable {disk other : Disk} (hshape : SameShape disk other)

include hshape

theorem isSome_get? (place : Location) : (other.get? place).isSome = (disk.get? place).isSome := by
  rw [← Option.isSome_map, hshape.shape place, Option.isSome_map]

theorem step : other.step = disk.step := by
  funext place segment
  rw [step_eq_shape, step_eq_shape, hshape.shape place]

theorem start (path : Path) : other.start path = disk.start path := by
  rw [Disk.start, Disk.start, hshape.here]

theorem follow : other.follow = disk.follow := by
  funext path
  rw [Disk.follow, Disk.follow, hshape.step, hshape.start]

theorem lookup? (path : Path) :
    (other.lookup? path).map Entry.isDirectory = (disk.lookup? path).map Entry.isDirectory := by
  rw [Disk.lookup?, Disk.lookup?, hshape.follow]
  cases disk.follow path with
  | error error => rfl
  | ok place => exact hshape.shape place

theorem isFile : other.isFile = disk.isFile := by
  funext path
  rw [isFile_eq_shape, isFile_eq_shape, hshape.lookup? path]

theorem isDirectory : other.isDirectory = disk.isDirectory := by
  funext path
  rw [isDirectory_eq_shape, isDirectory_eq_shape, hshape.lookup? path]

theorem contains : other.contains = disk.contains := by
  funext path
  rw [Disk.contains, Disk.contains, ← Option.isSome_map, hshape.lookup? path, Option.isSome_map]

theorem vacancy : other.vacancy = disk.vacancy := by
  funext path
  simp only [Disk.vacancy, hshape.step, hshape.start, hshape.isSome_get?]

theorem mem_children {path : Path} {name : String} :
    name ∈ other.children path ↔ name ∈ disk.children path := by
  simp only [mem_children_iff, hshape.follow, hshape.isSome_get?]

theorem mem_descendants {path : Path} {names : Location} :
    names ∈ other.descendants path ↔ names ∈ disk.descendants path := by
  simp only [mem_descendants_iff, hshape.follow, hshape.isSome_get?]

end SameShape

/-- Disks that have the same at every place. -/
structure Agrees (disk other : Disk) : Prop where
  here : other.here = disk.here
  get? : ∀ place, other.get? place = disk.get? place

namespace Agrees

variable {disk other : Disk}

theorem refl (disk : Disk) : Agrees disk disk :=
  ⟨rfl, fun _ => rfl⟩

theorem sameShape (hagrees : Agrees disk other) : SameShape disk other :=
  ⟨hagrees.here, fun place => by rw [hagrees.get? place]⟩

theorem lookup? (hagrees : Agrees disk other) (path : Path) :
    other.lookup? path = disk.lookup? path := by
  rw [Disk.lookup?, Disk.lookup?, hagrees.sameShape.follow]
  cases disk.follow path with
  | error error => rfl
  | ok place => exact hagrees.get? place

/-- Putting an entry where it is already makes no difference. -/
theorem put_of_get? (hagrees : Agrees disk other) {place : Location} {entry : Entry}
    (hentry : disk.get? place = some entry) : Agrees disk (other.put place entry) where
  here := hagrees.here
  get? := by
    intro found
    by_cases hfound : found = place
    · subst hfound
      by_cases hroot : found = []
      · rw [hroot, get?_nil, get?_nil]
      · rw [get?_put_self other hroot, hentry]
    · rw [get?_put_of_ne other hfound, hagrees.get?]

end Agrees

end Disk

namespace Glob

variable {disk other : Disk} (hshape : disk.SameShape other)

include hshape

/-- A step of a pattern leads to the same paths. -/
theorem mem_reach_sameShape (step : Step) {origin path : Path} :
    path ∈ step.reach other origin ↔ path ∈ step.reach disk origin := by
  cases step with
  | name text => rw [Step.reach, Step.reach, hshape.isDirectory, hshape.contains]
  | entries tokens =>
      simp only [Step.reach, hshape.isDirectory]
      split
      · simp only [List.mem_append, List.mem_map, List.mem_filter, hshape.mem_children]
      · rfl
  | below tokens => simp only [Step.reach, List.mem_filterMap, hshape.mem_descendants]

theorem mem_walk_sameShape (steps : List Step) {origin path : Path} :
    path ∈ walk other origin steps ↔ path ∈ walk disk origin steps := by
  induction steps generalizing origin with
  | nil => rfl
  | cons step steps ih => simp only [walk, List.mem_flatMap, mem_reach_sameShape hshape step, ih]

theorem mem_files_sameShape (pattern : Pattern) {path : Path} :
    path ∈ pattern.files other ↔ path ∈ pattern.files disk := by
  unfold Pattern.files
  split
  · simp only [List.mem_filter, mem_walk_sameShape hshape, hshape.isFile]
  · rfl

end Glob

namespace Inputs

variable {disk other : Disk} (hshape : disk.SameShape other)

include hshape

theorem mem_inDirectory_sameShape {directory path : Path} :
    path ∈ inDirectory other directory ↔ path ∈ inDirectory disk directory := by
  simp only [inDirectory, List.mem_filter, List.mem_map, hshape.mem_children, hshape.isFile]

/-- An input stands for the same paths, or is invalid with either disk. -/
theorem find_sameShape (input : String) :
    (∃ invalid, find other input = .error invalid ∧ find disk input = .error invalid) ∨
      ∃ found events files told, find other input = .ok (found, events) ∧
        find disk input = .ok (files, told) ∧ ∀ path, path ∈ found ↔ path ∈ files := by
  rw [find, find, hshape.isFile, hshape.isDirectory]
  dsimp only
  split
  · exact Or.inr ⟨_, _, _, _, rfl, rfl, fun _ => Iff.rfl⟩
  · split
    · exact Or.inr ⟨_, _, _, _, rfl, rfl, fun _ => mem_inDirectory_sameShape hshape⟩
    · split
      · exact Or.inl ⟨_, rfl, rfl⟩
      · exact Or.inr ⟨_, _, _, _, rfl, rfl, fun _ => Glob.mem_files_sameShape hshape _⟩

theorem isValid_sameShape (input : String) : IsValid other input ↔ IsValid disk input := by
  unfold IsValid
  obtain ⟨invalid, hother, hdisk⟩ | ⟨found, events, files, told, hother, hdisk, -⟩ :=
    find_sameShape hshape input
  · simp [hother, hdisk]
  · simp [hother, hdisk]

theorem finds_sameShape (input : String) (components : List Path.Component) :
    Finds other input components ↔ Finds disk input components := by
  unfold Finds
  obtain ⟨invalid, hother, hdisk⟩ | ⟨found, events, files, told, hother, hdisk, hsame⟩ :=
    find_sameShape hshape input
  · simp [hother, hdisk]
  · simp [hother, hdisk, hsame]

/-- Inputs are invalid on both disks or are expanded to the same paths, up to spelling. -/
theorem expand_sameShape (inputs : List String) :
    (∃ invalid again, (expand disk inputs).2 = .error invalid ∧
        (expand other inputs).2 = .error again) ∨
      ∃ paths found, (expand disk inputs).2 = .ok paths ∧ (expand other inputs).2 = .ok found ∧
        found.map Path.components = paths.map Path.components := by
  have hvalid : (∃ found, (expand other inputs).2 = .ok found) ↔
      ∃ paths, (expand disk inputs).2 = .ok paths := by
    simp only [exists_expand_iff, isValid_sameShape hshape]
  cases hpaths : (expand disk inputs).2 with
  | error invalid =>
      cases hfound : (expand other inputs).2 with
      | error again => exact Or.inl ⟨invalid, again, rfl, rfl⟩
      | ok found =>
          obtain ⟨paths, hok⟩ := hvalid.mp ⟨found, hfound⟩
          cases hpaths.symm.trans hok
  | ok paths =>
      obtain ⟨found, hfound⟩ := hvalid.mpr ⟨paths, hpaths⟩
      refine Or.inr ⟨paths, found, rfl, hfound, ?_⟩
      refine components_eq_of_expand hfound hpaths fun components => ?_
      simp only [finds_sameShape hshape]

end Inputs

end StyleDoc
