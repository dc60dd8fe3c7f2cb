import Mathlib.Data.List.Basic
import StyleDoc.Files.Disk

/-!
Where paths lead when a disk changes. A path is only ever led on by directories, so a disk that
still has all its directories still leads every path to where it led before. A change at one place
is seen there and nowhere else; therefore what a path finds at its end stays the same unless the
change was made at that very place.
-/

namespace StyleDoc

theorem Except.bind_eq_ok_iff {ε α β : Type} {first : Except ε α} {next : α → Except ε β} {b : β} :
    (first >>= next) = .ok b ↔ ∃ a, first = .ok a ∧ next a = .ok b := by
  cases first with
  | error error => exact ⟨nofun, fun ⟨_, hfirst, _⟩ => nomatch hfirst⟩
  | ok a =>
      refine ⟨fun hnext => ⟨a, rfl, hnext⟩, ?_⟩
      rintro ⟨_, ⟨⟩, hnext⟩
      exact hnext

/-- What is encoded is decoded again. -/
theorem fromUTF8?_toUTF8 (text : String) : String.fromUTF8? text.toUTF8 = some text :=
  dif_pos text.isValidUTF8

namespace Disk

theorem get?_nil (disk : Disk) : disk.get? [] = some .directory := rfl

theorem get?_of_ne_nil (disk : Disk) {place : Location} (hplace : place ≠ []) :
    disk.get? place = disk.entries.lookup place :=
  if_neg hplace

theorem ne_nil_of_get?_eq_none {disk : Disk} {place : Location}
    (hnone : disk.get? place = none) : place ≠ [] := by
  rintro rfl
  cases hnone

theorem get?_put_self (disk : Disk) {place : Location} (hplace : place ≠ []) (entry : Entry) :
    (disk.put place entry).get? place = some entry := by
  rw [get?_of_ne_nil _ hplace]
  simp [put]

/-- A change at one place leaves every other place as it is. -/
theorem get?_put_of_ne (disk : Disk) {place other : Location} (hne : other ≠ place)
    (entry : Entry) : (disk.put place entry).get? other = disk.get? other := by
  have hkept (entries : List (Location × Entry)) :
      (entries.filter (·.1 ≠ place)).lookup other = entries.lookup other := by
    induction entries with
    | nil => rfl
    | cons found entries ih =>
        by_cases hfound : found.1 = place
        · have hnot : (other == found.1) = false := by simpa [hfound] using hne
          rw [List.filter_cons_of_neg (by simp [hfound]), ih, List.lookup_cons, hnot]
        · rw [List.filter_cons_of_pos (by simp [hfound]), List.lookup_cons, List.lookup_cons, ih]
  by_cases hother : other = []
  · rw [hother, get?_nil, get?_nil]
  · have hnot : (other == place) = false := by simpa using hne
    rw [get?_of_ne_nil _ hother, get?_of_ne_nil _ hother, put, List.lookup_cons, hnot]
    exact hkept disk.entries

/-- Where one segment of a path leads from a directory. -/
def advance (place : Location) (segment : String) : Location :=
  if segment = "" || segment = "." then place
  else if segment = ".." then place.dropLast
  else place ++ [segment]

theorem step_eq_ok_iff {disk : Disk} {place next : Location} {segment : String} :
    disk.step place segment = .ok next ↔
      disk.get? place = some .directory ∧ next = advance place segment := by
  unfold step advance
  split
  · rename_i hnone
    simp [hnone]
  · rename_i hfile
    simp [hfile]
  · rename_i hdirectory
    rw [hdirectory]
    split
    · simp [eq_comm]
    · split <;> simp [eq_comm]

/-- Slashes at the end of a path stay in the directory that it has led to. -/
theorem foldlM_step_of_forall_empty {disk : Disk} {place : Location}
    (hplace : disk.get? place = some .directory) {trailing : List String}
    (htrailing : ∀ segment ∈ trailing, segment = "") :
    trailing.foldlM disk.step place = .ok place := by
  induction trailing with
  | nil => rfl
  | cons segment trailing ih =>
      obtain ⟨rfl, hrest⟩ := List.forall_mem_cons.mp htrailing
      have hstep : disk.step place "" = .ok place := step_eq_ok_iff.mpr ⟨hplace, rfl⟩
      exact Except.bind_eq_ok_iff.mpr ⟨place, hstep, ih hrest⟩

theorem eq_of_foldlM_step_of_forall_empty {disk : Disk} {place target : Location}
    {trailing : List String} (htrailing : ∀ segment ∈ trailing, segment = "")
    (htarget : trailing.foldlM disk.step place = .ok target) : target = place := by
  induction trailing generalizing place with
  | nil => exact (Except.ok.inj htarget).symm
  | cons segment trailing ih =>
      obtain ⟨rfl, hrest⟩ := List.forall_mem_cons.mp htrailing
      obtain ⟨next, hnext, htarget⟩ := Except.bind_eq_ok_iff.mp htarget
      have hplace : next = place := (step_eq_ok_iff.mp hnext).2
      exact (ih hrest htarget).trans hplace

/-- Every directory of the first disk is still one on the second. -/
structure KeepsDirectories (disk other : Disk) : Prop where
  here : other.here = disk.here
  directory : ∀ place, disk.get? place = some .directory → other.get? place = some .directory

namespace KeepsDirectories

variable {disk other : Disk}

theorem refl (disk : Disk) : KeepsDirectories disk disk :=
  ⟨rfl, fun _ => id⟩

theorem trans {last : Disk} (hother : KeepsDirectories disk other)
    (hlast : KeepsDirectories other last) : KeepsDirectories disk last where
  here := hlast.here.trans hother.here
  directory := fun place hplace => hlast.directory place (hother.directory place hplace)

theorem foldlM_step (hkeeps : KeepsDirectories disk other) {segments : List String}
    {place target : Location} (htarget : segments.foldlM disk.step place = .ok target) :
    segments.foldlM other.step place = .ok target := by
  induction segments generalizing place with
  | nil => exact htarget
  | cons segment segments ih =>
      rw [List.foldlM_cons] at htarget ⊢
      obtain ⟨next, hnext, htarget⟩ := Except.bind_eq_ok_iff.mp htarget
      obtain ⟨hplace, hadvance⟩ := step_eq_ok_iff.mp hnext
      have hother := step_eq_ok_iff.mpr ⟨hkeeps.directory place hplace, hadvance⟩
      exact Except.bind_eq_ok_iff.mpr ⟨next, hother, ih htarget⟩

theorem follow (hkeeps : KeepsDirectories disk other) {path : Path} {target : Location}
    (htarget : disk.follow path = .ok target) : other.follow path = .ok target := by
  have hstart : other.start path = disk.start path := by
    rw [start, start, hkeeps.here]
  unfold Disk.follow at htarget ⊢
  rw [hstart]
  split at htarget
  · cases htarget
  · rename_i hne
    rw [if_neg hne]
    exact hkeeps.foldlM_step htarget

/-- A file can be put wherever there is no directory. -/
theorem put {place : Location} (hplace : disk.get? place ≠ some .directory) (entry : Entry) :
    KeepsDirectories disk (disk.put place entry) where
  here := rfl
  directory := by
    intro found hfound
    have hne : found ≠ place := by
      rintro rfl
      exact hplace hfound
    rw [get?_put_of_ne disk hne, hfound]

end KeepsDirectories

/-- What a path finds is not changed by what is put at another place. -/
theorem lookup?_put {disk : Disk} {place target : Location} {path : Path} (entry : Entry)
    (hplace : disk.get? place ≠ some .directory) (htarget : disk.follow path = .ok target)
    (hne : target ≠ place) : (disk.put place entry).lookup? path = disk.lookup? path := by
  have hfollow := (KeepsDirectories.put hplace entry).follow htarget
  simp only [lookup?, hfollow, htarget, get?_put_of_ne disk hne entry]

/-- Reading succeeds exactly on files whose bytes are a text. -/
theorem read_eq_ok_iff {disk : Disk} {path : Path} {text : String} :
    disk.read path = .ok text ↔
      ∃ bytes, disk.lookup? path = some (.file bytes) ∧ String.fromUTF8? bytes = some text := by
  unfold read lookup?
  cases disk.follow path with
  | error error => simp [bind, Except.bind]
  | ok place =>
      cases hfound : disk.get? place with
      | none => simp [bind, Except.bind, hfound]
      | some entry =>
          cases entry with
          | directory => simp [bind, Except.bind, hfound]
          | file bytes =>
              cases htext : String.fromUTF8? bytes <;> simp [bind, Except.bind, hfound, htext]

theorem isFile_iff {disk : Disk} {path : Path} :
    disk.isFile path = true ↔
      ∃ place bytes, disk.follow path = .ok place ∧ disk.get? place = some (.file bytes) := by
  unfold isFile lookup?
  cases disk.follow path with
  | error error => simp
  | ok place =>
      cases hfound : disk.get? place with
      | none => simp [hfound]
      | some entry => cases entry <;> simp [hfound]

theorem exists_follow_of_isFile {disk : Disk} {path : Path} (hfile : disk.isFile path = true) :
    ∃ place, disk.follow path = .ok place := by
  obtain ⟨place, bytes, hfollow, -⟩ := isFile_iff.mp hfile
  exact ⟨place, hfollow⟩

theorem isDirectory_iff {disk : Disk} {path : Path} :
    disk.isDirectory path = true ↔
      ∃ place, disk.follow path = .ok place ∧ disk.get? place = some .directory := by
  unfold isDirectory lookup?
  cases disk.follow path <;> simp

theorem write_eq_ok {disk changed : Disk} {path : Path} {text : String}
    (hwrite : disk.write path text = .ok changed) :
    ∃ place, disk.follow path = .ok place ∧ disk.get? place ≠ some .directory ∧
      changed = disk.put place (.file text.toUTF8) := by
  obtain ⟨place, hfollow, hput⟩ := Except.bind_eq_ok_iff.mp hwrite
  split at hput
  · cases hput
  · rename_i hplace
    exact ⟨place, hfollow, hplace, (Except.ok.inj hput).symm⟩

/-- Only a directory is in the way of a file. -/
theorem write_of_follow {disk : Disk} {path : Path} {place : Location}
    (hfollow : disk.follow path = .ok place) (text : String) :
    disk.write path text =
      if disk.get? place = some .directory then .error .isDirectory
      else .ok (disk.put place (.file text.toUTF8)) := by
  rw [write, hfollow]
  dsimp only [bind, Except.bind]
  split
  · rename_i hplace
    rw [if_pos hplace]
  · rename_i hplace
    rw [if_neg hplace]

theorem keepsDirectories_of_write {disk changed : Disk} {path : Path} {text : String}
    (hwrite : disk.write path text = .ok changed) : KeepsDirectories disk changed := by
  obtain ⟨place, -, hplace, rfl⟩ := write_eq_ok hwrite
  exact .put hplace _

/-- Paths that could be followed before a write still can. -/
theorem forall_follow_of_write {disk changed : Disk} {path : Path} {text : String}
    {others : List Path} (hwrite : disk.write path text = .ok changed)
    (hothers : ∀ other ∈ others, ∃ place, disk.follow other = .ok place) :
    ∀ other ∈ others, ∃ place, changed.follow other = .ok place := by
  intro other hother
  obtain ⟨place, hplace⟩ := hothers other hother
  exact ⟨place, (keepsDirectories_of_write hwrite).follow hplace⟩

/-- Writes texts to paths, one after the other. -/
def writeAll (disk : Disk) (writes : List (Path × String)) : Except FileError Disk :=
  writes.foldlM (fun disk write => disk.write write.1 write.2) disk

/-- A place that none of the paths leads to stays as it was. -/
theorem get?_of_writeAll {disk after : Disk} {writes : List (Path × String)} {place : Location}
    (hwrites : disk.writeAll writes = .ok after)
    (hplace : ∀ write ∈ writes, ∃ target, disk.follow write.1 = .ok target ∧ place ≠ target) :
    after.get? place = disk.get? place := by
  induction writes generalizing disk with
  | nil => rw [Except.ok.inj hwrites]
  | cons write writes ih =>
      obtain ⟨changed, hchanged, hwrites⟩ := Except.bind_eq_ok_iff.mp hwrites
      have hkeeps := keepsDirectories_of_write hchanged
      obtain ⟨target, hfollow, -, rfl⟩ := write_eq_ok hchanged
      obtain ⟨⟨other, hother, hne⟩, hrest⟩ := List.forall_mem_cons.mp hplace
      obtain rfl := Except.ok.inj (hother.symm.trans hfollow)
      rw [ih hwrites fun later hlater => ?_, get?_put_of_ne disk hne]
      obtain ⟨next, hnext, hnot⟩ := hrest later hlater
      exact ⟨next, hkeeps.follow hnext, hnot⟩

end Disk

end StyleDoc
