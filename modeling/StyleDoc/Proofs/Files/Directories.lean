import Mathlib.Data.List.TakeWhile
import StyleDoc.Proofs.Files.Places

/-!
Making directories. Whether it succeeds or fails half-way, all that making a directory and those
above it adds to a disk are directories where nothing was: every entry stays, and no file appears.
When it succeeds, the path leads to a directory.
-/

namespace StyleDoc.Disk

/-- The second disk has the entries of the first one, and besides them nothing but directories. -/
structure AddsDirectories (disk other : Disk) : Prop where
  here : other.here = disk.here
  kept : ∀ place entry, disk.get? place = some entry → other.get? place = some entry
  noFile : ∀ place content, other.get? place = some (.file content) →
    disk.get? place = some (.file content)

namespace AddsDirectories

theorem refl (disk : Disk) : AddsDirectories disk disk :=
  ⟨rfl, fun _ _ => id, fun _ _ => id⟩

theorem trans {first second third : Disk} (hsecond : AddsDirectories first second)
    (hthird : AddsDirectories second third) : AddsDirectories first third where
  here := hthird.here.trans hsecond.here
  kept := fun place entry hentry => hthird.kept place entry (hsecond.kept place entry hentry)
  noFile := fun place content hfile =>
    hsecond.noFile place content (hthird.noFile place content hfile)

theorem put {disk : Disk} {place : Location} (hnone : disk.get? place = none) :
    AddsDirectories disk (disk.put place .directory) := by
  have hne := ne_nil_of_get?_eq_none hnone
  refine ⟨rfl, fun found entry hentry => ?_, fun found content hfile => ?_⟩
  · have hfound : found ≠ place := by
      rintro rfl
      rw [hnone] at hentry
      cases hentry
    rw [get?_put_of_ne disk hfound, hentry]
  · have hfound : found ≠ place := by
      rintro rfl
      rw [get?_put_self disk hne] at hfile
      cases hfile
    rwa [get?_put_of_ne disk hfound] at hfile

theorem keepsDirectories {disk other : Disk} (hadds : AddsDirectories disk other) :
    KeepsDirectories disk other :=
  ⟨hadds.here, fun place => hadds.kept place .directory⟩

theorem get?_eq_file_iff {disk other : Disk} (hadds : AddsDirectories disk other)
    (place : Location) (content : ByteArray) :
    other.get? place = some (.file content) ↔ disk.get? place = some (.file content) :=
  ⟨hadds.noFile place content, hadds.kept place _⟩

/-- What is read from a disk is read from it with more directories. -/
theorem read_eq_ok {disk other : Disk} (hadds : AddsDirectories disk other)
    {path : Path} {text : String} (hread : disk.read path = .ok text) :
    other.read path = .ok text := by
  obtain ⟨bytes, hlookup, htext⟩ := read_eq_ok_iff.mp hread
  refine read_eq_ok_iff.mpr ⟨bytes, ?_, htext⟩
  unfold lookup? at hlookup ⊢
  split at hlookup
  · rename_i place hfollow
    rw [hadds.keepsDirectories.follow hfollow]
    exact hadds.kept place _ hlookup
  · cases hlookup

end AddsDirectories

/-- The segments of a path, from its last one that is not empty. -/
theorem exists_segments_eq_append {path : Path} {last : String} {front : List String}
    (hpath : path.segments.reverse.dropWhile (· = "") = last :: front) :
    ∃ trailing, (∀ segment ∈ trailing, segment = "") ∧
      path.segments = front.reverse ++ last :: trailing := by
  refine ⟨(path.segments.reverse.takeWhile (· = "")).reverse, fun segment hsegment => ?_, ?_⟩
  · simpa using List.mem_takeWhile_imp (List.mem_reverse.mp hsegment)
  · have hwhole := List.takeWhile_append_dropWhile (p := (· = "")) (l := path.segments.reverse)
    rw [hpath] at hwhole
    simpa using (congrArg List.reverse hwhole).symm

/-- A new directory is the only change, and the path leads to it. -/
theorem makeDirectory_eq_ok {disk made : Disk} {path : Path}
    (hmade : disk.makeDirectory path = .ok made) :
    AddsDirectories disk made ∧ made.isDirectory path = true := by
  unfold makeDirectory at hmade
  split at hmade
  · split at hmade <;> cases hmade
  · rename_i last front hpath
    obtain ⟨parent, hparent, hmade⟩ := Except.bind_eq_ok_iff.mp hmade
    obtain ⟨place, hplace, hmade⟩ := Except.bind_eq_ok_iff.mp hmade
    split at hmade
    · cases hmade
    · rename_i hnone
      obtain rfl := Except.ok.inj hmade
      have hadds := AddsDirectories.put hnone
      have hdirectory := get?_put_self disk (ne_nil_of_get?_eq_none hnone) .directory
      refine ⟨hadds, isDirectory_iff.mpr ⟨place, ?_, hdirectory⟩⟩
      obtain ⟨trailing, htrailing, hsegments⟩ := exists_segments_eq_append hpath
      have htext : path.text ≠ "" := by
        intro hempty
        have hnil : path.segments = [""] := by simp [Path.segments, hempty]
        simp [hnil] at hpath
      have hlast : [last].foldlM disk.step parent = .ok place :=
        Except.bind_eq_ok_iff.mpr ⟨place, hplace, rfl⟩
      have hkeeps := hadds.keepsDirectories
      rw [follow, if_neg htext, hsegments, List.foldlM_append, ← List.singleton_append]
      refine Except.bind_eq_ok_iff.mpr ⟨parent, hkeeps.foldlM_step hparent, ?_⟩
      rw [List.foldlM_append]
      exact Except.bind_eq_ok_iff.mpr ⟨place, hkeeps.foldlM_step hlast,
        foldlM_step_of_forall_empty hdirectory htrailing⟩

/-- What may come of making the directory of a path. -/
structure Makes (path : Path) (disk : Disk) (outcome : Disk × Option FileError) : Prop where
  adds : AddsDirectories disk outcome.1
  found : outcome.2 = none → outcome.1.isDirectory path = true

/-- Makes a directory in one that is there, or finds it there already. -/
def makeOrFind (path : Path) (disk : Disk) : Disk × Option FileError :=
  match disk.makeDirectory path with
  | .ok made => (made, none)
  | .error error => (disk, if disk.isDirectory path then none else some error)

theorem makeOrFind_makes (path : Path) (disk : Disk) : Makes path disk (makeOrFind path disk) := by
  unfold makeOrFind
  split
  · rename_i made hmade
    obtain ⟨hadds, hfound⟩ := makeDirectory_eq_ok hmade
    exact ⟨hadds, fun _ => hfound⟩
  · refine ⟨.refl disk, fun hnone => ?_⟩
    split at hnone
    · assumption
    · cases hnone

theorem ensureDirectory_eq (path : Path) (above : Disk → Disk × Option FileError) (disk : Disk) :
    ensureDirectory path above disk =
      match disk.makeDirectory path with
      | .error .missing =>
          match above disk with
          | (prepared, none) => makeOrFind path prepared
          | failed => failed
      | _ => makeOrFind path disk := rfl

theorem ensureDirectory_makes {path : Path} {above : Disk → Disk × Option FileError} {disk : Disk}
    (habove : AddsDirectories disk (above disk).1) :
    Makes path disk (ensureDirectory path above disk) := by
  rw [ensureDirectory_eq]
  split
  · split
    · rename_i prepared hprepared
      rw [hprepared] at habove
      obtain ⟨hadds, hfound⟩ := makeOrFind_makes path prepared
      exact ⟨habove.trans hadds, hfound⟩
    · rename_i hfailed
      refine ⟨habove, fun hnone => ?_⟩
      exact (hfailed _ (Prod.ext rfl hnone)).elim
  · exact makeOrFind_makes path disk

/-- The directories above a path are made from the first one that is missing. -/
theorem makeAbove_adds (components : List Path.Component) (disk : Disk) :
    AddsDirectories disk (makeAbove components disk).1 := by
  induction components generalizing disk with
  | nil => exact .refl disk
  | cons last front ih => exact (ensureDirectory_makes (ih disk)).adds

theorem makeDirectories_makes (disk : Disk) (path : Path) :
    Makes path disk (disk.makeDirectories path) :=
  ensureDirectory_makes (makeAbove_adds _ disk)

end StyleDoc.Disk
