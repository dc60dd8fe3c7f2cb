import StyleDoc.Proofs.Files.Shape

/-!
Two disks that differ in what one file holds. Since they have the same shape, whatever is put, made
or written on both of them ends alike and leaves disks that differ in that file at most; the
difference is gone once the file has been written over.
-/

namespace StyleDoc.Disk

/-- The first disk may have one text, and the second one another, at one place. -/
structure DiffersAt (place : Location) (before after : ByteArray) (disk other : Disk) : Prop where
  here : other.here = disk.here
  get? : ∀ found, other.get? found = disk.get? found ∨
    found = place ∧ disk.get? found = some (.file before) ∧ other.get? found = some (.file after)

namespace DiffersAt

variable {place : Location} {before after : ByteArray} {disk other : Disk}

theorem of_put (hfile : disk.get? place = some (.file before)) :
    DiffersAt place before after disk (disk.put place (.file after)) where
  here := rfl
  get? := by
    intro found
    by_cases hfound : found = place
    · subst hfound
      have hne : found ≠ [] := by
        rintro rfl
        cases hfile
      exact Or.inr ⟨rfl, hfile, get?_put_self disk hne _⟩
    · exact Or.inl (get?_put_of_ne disk hfound _)

theorem of_agrees (hagrees : Agrees disk other) : DiffersAt place before after disk other :=
  ⟨hagrees.here, fun found => Or.inl (hagrees.get? found)⟩

variable (hdiffers : DiffersAt place before after disk other)

include hdiffers

theorem sameShape : SameShape disk other where
  here := hdiffers.here
  shape := by
    intro found
    rcases hdiffers.get? found with hsame | ⟨-, hbefore, hafter⟩
    · rw [hsame]
    · rw [hbefore, hafter]
      rfl

/-- Where the same text is on both sides there is no difference. -/
theorem agrees_of_get?_eq (hplace : other.get? place = disk.get? place) : Agrees disk other where
  here := hdiffers.here
  get? := by
    intro found
    rcases hdiffers.get? found with hsame | ⟨rfl, -, -⟩
    · exact hsame
    · exact hplace

omit hdiffers in
theorem agrees_of_self {text : ByteArray} (hself : DiffersAt place text text disk other) :
    Agrees disk other where
  here := hself.here
  get? := by
    intro found
    rcases hself.get? found with hsame | ⟨-, hbefore, hafter⟩
    · exact hsame
    · rw [hbefore, hafter]

theorem get?_eq_directory_iff (found : Location) :
    other.get? found = some .directory ↔ disk.get? found = some .directory := by
  rcases hdiffers.get? found with hsame | ⟨-, hbefore, hafter⟩
  · rw [hsame]
  · rw [hbefore, hafter]
    exact ⟨nofun, nofun⟩

/-- What is put on both disks is the same on both of them. -/
theorem put (target : Location) (entry : Entry) :
    DiffersAt place before after (disk.put target entry) (other.put target entry) where
  here := hdiffers.here
  get? := by
    intro found
    by_cases hfound : found = target
    · subst hfound
      by_cases hroot : found = []
      · exact Or.inl (by rw [hroot, get?_nil, get?_nil])
      · exact Or.inl (by rw [get?_put_self disk hroot, get?_put_self other hroot])
    · rw [get?_put_of_ne disk hfound, get?_put_of_ne other hfound]
      exact hdiffers.get? found

theorem makeDirectory (path : Path) :
    (∃ error, disk.makeDirectory path = .error error ∧ other.makeDirectory path = .error error) ∨
      ∃ made changed, disk.makeDirectory path = .ok made ∧
        other.makeDirectory path = .ok changed ∧ DiffersAt place before after made changed := by
  rw [makeDirectory_eq, makeDirectory_eq, hdiffers.sameShape.vacancy]
  cases disk.vacancy path with
  | error error => exact Or.inl ⟨error, rfl, rfl⟩
  | ok target => exact Or.inr ⟨_, _, rfl, rfl, hdiffers.put target .directory⟩

theorem write (path : Path) (text : String) :
    (∃ error, disk.write path text = .error error ∧ other.write path text = .error error) ∨
      ∃ written changed, disk.write path text = .ok written ∧
        other.write path text = .ok changed ∧ DiffersAt place before after written changed := by
  cases hfollow : disk.follow path with
  | error error =>
      refine Or.inl ⟨error, ?_, ?_⟩
      · rw [Disk.write, hfollow]
        rfl
      · rw [Disk.write, hdiffers.sameShape.follow, hfollow]
        rfl
  | ok target =>
      have hother : other.follow path = .ok target := by
        rw [hdiffers.sameShape.follow, hfollow]
      rw [write_of_follow hfollow, write_of_follow hother]
      simp only [hdiffers.get?_eq_directory_iff]
      split
      · exact Or.inl ⟨_, rfl, rfl⟩
      · exact Or.inr ⟨_, _, rfl, rfl, hdiffers.put target _⟩

theorem makeOrFind (path : Path) :
    DiffersAt place before after (Disk.makeOrFind path disk).1 (Disk.makeOrFind path other).1 ∧
      (Disk.makeOrFind path other).2 = (Disk.makeOrFind path disk).2 := by
  unfold Disk.makeOrFind
  rw [hdiffers.sameShape.isDirectory]
  obtain ⟨error, hdisk, hother⟩ | ⟨made, changed, hdisk, hother, hmade⟩ :=
    hdiffers.makeDirectory path
  · rw [hdisk, hother]
    exact ⟨hdiffers, rfl⟩
  · rw [hdisk, hother]
    exact ⟨hmade, rfl⟩

end DiffersAt

/-- Made on both disks, directories leave the difference as it is and end with the same failure. -/
def Tracks (place : Location) (before after : ByteArray)
    (make : Disk → Disk × Option FileError) : Prop :=
  ∀ disk other, DiffersAt place before after disk other →
    DiffersAt place before after (make disk).1 (make other).1 ∧ (make other).2 = (make disk).2

variable {place : Location} {before after : ByteArray}

theorem ensureDirectory_tracks (path : Path) {above : Disk → Disk × Option FileError}
    (htracks : Tracks place before after above) :
    Tracks place before after (ensureDirectory path above) := by
  intro disk other hdiffers
  obtain ⟨hprepared, hsame⟩ := htracks disk other hdiffers
  have hmade := hdiffers.makeOrFind path
  rw [ensureDirectory_eq, ensureDirectory_eq]
  obtain ⟨error, hdisk, hother⟩ | ⟨made, changed, hdisk, hother, -⟩ := hdiffers.makeDirectory path
  · rw [hdisk, hother]
    cases error with
    | missing =>
        rcases habove : above disk with ⟨prepared, failed⟩
        rcases hagain : above other with ⟨readied, again⟩
        rw [habove, hagain] at hprepared hsame
        obtain rfl : again = failed := hsame
        cases again with
        | none => exact hprepared.makeOrFind path
        | some error => exact ⟨hprepared, rfl⟩
    | alreadyExists | notDirectory | isDirectory | notText => exact hmade
  · rw [hdisk, hother]
    exact hmade

theorem makeAbove_tracks (backwards : List Path.Component) :
    Tracks place before after (makeAbove backwards) := by
  induction backwards with
  | nil => exact fun _ _ hdiffers => ⟨hdiffers, rfl⟩
  | cons last front ih => exact ensureDirectory_tracks _ ih

theorem makeDirectories_tracks (path : Path) :
    Tracks place before after (makeDirectories · path) :=
  ensureDirectory_tracks path (makeAbove_tracks _)

end StyleDoc.Disk
