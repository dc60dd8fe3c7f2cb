import StyleDoc.Proofs.Files.Directories
import StyleDoc.Proofs.Files.Way

/-!
Making directories once more. All that making a directory adds are directories on the way to it. When
the directory above cannot be made, neither can the directory itself, because a path only leads on
from what is there; so what was made is found the second time, what was refused is refused again, and
the disk stays as the first time has left it.
-/

namespace StyleDoc

namespace Disk

/-- The place at which the directory of a path is missing, while the one above it is there. -/
def vacancy (disk : Disk) (path : Path) : Except FileError Location :=
  match path.segments.reverse.dropWhile (· = "") with
  | [] => if path.text = "" then .error .missing else .error .alreadyExists
  | last :: front => do
      let parent ← front.reverse.foldlM disk.step (disk.start path)
      let place ← disk.step parent last
      if (disk.get? place).isSome then .error .alreadyExists else .ok place

theorem makeDirectory_eq (disk : Disk) (path : Path) :
    disk.makeDirectory path = (disk.vacancy path).map (disk.put · .directory) := by
  unfold makeDirectory vacancy
  generalize path.segments.reverse.dropWhile (· = "") = backwards
  cases backwards with
  | nil => dsimp only; split <;> rfl
  | cons last front =>
      dsimp only
      cases front.reverse.foldlM disk.step (disk.start path) with
      | error error => rfl
      | ok parent =>
          cases hplace : disk.step parent last with
          | error error => simp [bind, Except.bind, hplace, Except.map]
          | ok place =>
              cases hfound : disk.get? place <;>
                simp [bind, Except.bind, hplace, hfound, Except.map]

theorem vacancy_eq_ok {disk : Disk} {path : Path} {place : Location}
    (hvacancy : disk.vacancy path = .ok place) :
    disk.get? place = none ∧ disk.LeadsTo path place := by
  unfold vacancy at hvacancy
  split at hvacancy
  · split at hvacancy <;> cases hvacancy
  · rename_i last front hpath
    obtain ⟨parent, hparent, hvacancy⟩ := Except.bind_eq_ok_iff.mp hvacancy
    obtain ⟨found, hfound, hvacancy⟩ := Except.bind_eq_ok_iff.mp hvacancy
    split at hvacancy
    · cases hvacancy
    · rename_i hvacant
      obtain rfl := Except.ok.inj hvacancy
      refine ⟨Option.not_isSome_iff_eq_none.mp hvacant, ?_⟩
      obtain ⟨trailing, htrailing, hsegments⟩ := exists_segments_eq_append hpath
      have hcounting : path.segments.filterMap Path.Component.ofSegment? =
          (front.reverse ++ [last]).filterMap Path.Component.ofSegment? := by
        have hempty : trailing.filterMap Path.Component.ofSegment? = [] := by
          rw [List.filterMap_eq_nil_iff]
          intro segment hsegment
          rw [htrailing segment hsegment]
          rfl
        rw [hsegments, ← List.singleton_append, ← List.append_assoc, List.filterMap_append, hempty,
          List.append_nil]
      rw [LeadsTo, hcounting]
      refine foldlM_step_components ?_
      rw [List.foldlM_append]
      exact Except.bind_eq_ok_iff.mpr ⟨parent, hparent, Except.bind_eq_ok_iff.mpr ⟨_, hfound, rfl⟩⟩

theorem makeDirectory_eq_ok_iff {disk made : Disk} {path : Path} :
    disk.makeDirectory path = .ok made ↔
      ∃ place, disk.vacancy path = .ok place ∧ made = disk.put place .directory := by
  rw [makeDirectory_eq]
  cases disk.vacancy path <;> simp [Except.map, eq_comm]

/-- A directory that is there is found to be there already. -/
theorem makeDirectory_of_isDirectory {disk : Disk} {path : Path}
    (hdirectory : disk.isDirectory path = true) :
    disk.makeDirectory path = .error .alreadyExists := by
  obtain ⟨place, hfollow, hplace⟩ := isDirectory_iff.mp hdirectory
  unfold follow at hfollow
  split at hfollow
  · cases hfollow
  · rename_i hne
    unfold makeDirectory
    split
    · rw [if_neg hne]
    · rename_i last front hpath
      obtain ⟨trailing, htrailing, hsegments⟩ := exists_segments_eq_append hpath
      rw [hsegments, List.foldlM_append] at hfollow
      obtain ⟨parent, hparent, hfollow⟩ := Except.bind_eq_ok_iff.mp hfollow
      obtain ⟨target, htarget, hstay⟩ := Except.bind_eq_ok_iff.mp hfollow
      obtain rfl := eq_of_foldlM_step_of_forall_empty htrailing hstay
      simp only [hparent, htarget, hplace, bind, Except.bind]

theorem makeOrFind_of_isDirectory {disk : Disk} {path : Path}
    (hdirectory : disk.isDirectory path = true) : makeOrFind path disk = (disk, none) := by
  rw [makeOrFind, makeDirectory_of_isDirectory hdirectory]
  exact Prod.ext rfl (if_pos hdirectory)

theorem ensureDirectory_of_isDirectory {path : Path} {disk : Disk}
    (above : Disk → Disk × Option FileError) (hdirectory : disk.isDirectory path = true) :
    ensureDirectory path above disk = (disk, none) := by
  rw [ensureDirectory_eq, makeDirectory_of_isDirectory hdirectory]
  exact makeOrFind_of_isDirectory hdirectory

theorem makeDirectories_of_isDirectory {path : Path} {disk : Disk}
    (hdirectory : disk.isDirectory path = true) : disk.makeDirectories path = (disk, none) :=
  ensureDirectory_of_isDirectory _ hdirectory

/-- Nothing was added but directories at places that the beginnings of the components lead to. -/
structure AddsOnWay (components : List Path.Component) (disk other : Disk) : Prop extends
    AddsDirectories disk other where
  onWay : ∀ place, other.get? place ≠ disk.get? place →
    ∃ front, front <+: components ∧ place = front.foldl Path.Component.next disk.here

namespace AddsOnWay

variable {components : List Path.Component}

theorem refl (disk : Disk) : AddsOnWay components disk disk :=
  ⟨.refl disk, fun _ hne => absurd rfl hne⟩

theorem trans {first second third : Disk} (hsecond : AddsOnWay components first second)
    (hthird : AddsOnWay components second third) : AddsOnWay components first third where
  toAddsDirectories := hsecond.toAddsDirectories.trans hthird.toAddsDirectories
  onWay := by
    intro place hne
    by_cases hsame : third.get? place = second.get? place
    · exact hsecond.onWay place (hsame ▸ hne)
    · rw [← hsecond.here]
      exact hthird.onWay place hsame

theorem mono {longer : List Path.Component} {disk other : Disk}
    (hadds : AddsOnWay components disk other) (hlonger : components <+: longer) :
    AddsOnWay longer disk other where
  toAddsDirectories := hadds.toAddsDirectories
  onWay := by
    intro place hne
    obtain ⟨front, hfront, hplace⟩ := hadds.onWay place hne
    exact ⟨front, hfront.trans hlonger, hplace⟩

end AddsOnWay

theorem makeOrFind_addsOnWay (path : Path) (disk : Disk) :
    AddsOnWay path.components disk (makeOrFind path disk).1 := by
  unfold makeOrFind
  split
  · rename_i made hmade
    refine ⟨(makeDirectory_eq_ok hmade).1, fun place hne => ?_⟩
    obtain ⟨target, hvacancy, rfl⟩ := makeDirectory_eq_ok_iff.mp hmade
    by_cases hplace : place = target
    · exact ⟨_, List.prefix_rfl, hplace ▸ (vacancy_eq_ok hvacancy).2.eq_foldl⟩
    · exact absurd (get?_put_of_ne disk hplace _) hne
  · exact .refl disk

theorem ensureDirectory_addsOnWay {path : Path} {above : Disk → Disk × Option FileError}
    {disk : Disk} {front : List Path.Component} (hfront : front <+: path.components)
    (habove : AddsOnWay front disk (above disk).1) :
    AddsOnWay path.components disk (ensureDirectory path above disk).1 := by
  rw [ensureDirectory_eq]
  split
  · split
    · rename_i prepared hprepared
      rw [hprepared] at habove
      exact (habove.mono hfront).trans (makeOrFind_addsOnWay path prepared)
    · exact habove.mono hfront
  · exact makeOrFind_addsOnWay path disk

theorem makeAbove_addsOnWay {backwards : List Path.Component}
    (hway : Path.IsWay backwards.reverse) (disk : Disk) :
    AddsOnWay backwards.reverse disk (makeAbove backwards disk).1 := by
  induction backwards generalizing disk with
  | nil => exact .refl disk
  | cons last front ih =>
      have hcomponents := (Path.components_ofComponents hway).1
      rw [List.reverse_cons] at hway hcomponents ⊢
      have hfront : front.reverse <+:
          (Path.ofComponents (front.reverse ++ [last])).components := by
        rw [hcomponents]
        exact List.prefix_append _ _
      have hadds := ensureDirectory_addsOnWay hfront (ih hway.of_concat disk)
      rw [hcomponents] at hadds
      rw [makeAbove, List.reverse_cons]
      exact hadds

theorem isWay_dropLast (path : Path) : Path.IsWay path.components.reverse.tail.reverse := by
  have hway := Path.isWay_components path
  rcases List.eq_nil_or_concat path.components with hnone | ⟨front, last, hlast⟩
  · rw [hnone]
    exact .nil
  · rw [List.concat_eq_append] at hlast
    rw [hlast] at hway
    simpa [hlast] using hway.of_concat

/-- Making a directory adds nothing but directories on the way to it, also when it fails. -/
theorem makeDirectories_addsOnWay (disk : Disk) (path : Path) :
    AddsOnWay path.components disk (disk.makeDirectories path).1 := by
  refine ensureDirectory_addsOnWay ?_ (makeAbove_addsOnWay (isWay_dropLast path) disk)
  rw [List.tail_reverse, List.reverse_reverse]
  exact List.dropLast_prefix _

/-- Where a path leads on at all, nothing stands in the way of making the directory above it. -/
theorem makeAbove_of_leadsTo {disk : Disk} {path : Path} {place : Location}
    (hleads : disk.LeadsTo path place) : (makeAbove path.components.reverse.tail disk).2 = none := by
  rcases List.eq_nil_or_concat path.components with hnone | ⟨front, last, hlast⟩
  · rw [hnone]
    rfl
  · rw [List.concat_eq_append] at hlast
    rw [hlast, List.reverse_append, List.reverse_singleton, List.singleton_append, List.tail_cons]
    cases hfront : front.reverse with
    | nil => rfl
    | cons next higher =>
        have hne : front ≠ [] := by
          rintro rfl
          cases hfront
        rw [makeAbove, ← hfront, List.reverse_reverse,
          ensureDirectory_of_isDirectory _ (hleads.isDirectory_above hlast hne)]

/-- Made once more, a directory leaves the disk as it is, and the end is the same. -/
def Settles (make : Disk → Disk × Option FileError) : Prop :=
  ∀ disk, (make (make disk).1).1 = (make disk).1 ∧
    (make (make disk).1).2.isSome = (make disk).2.isSome

/-- A disk on which the directory of a path can be made neither now nor after the one above. -/
structure Blocks (path : Path) (above : Disk → Disk × Option FileError) (disk : Disk) : Prop where
  refused : ∃ error, disk.makeDirectory path = .error error ∧
    (error = .missing → (above disk).1 = disk)
  absent : disk.isDirectory path = false

theorem makeOrFind_of_not_isDirectory {path : Path} {disk : Disk} {error : FileError}
    (herror : disk.makeDirectory path = .error error) (habsent : disk.isDirectory path = false) :
    makeOrFind path disk = (disk, some error) := by
  rw [makeOrFind, herror]
  exact Prod.ext rfl (if_neg (by rw [habsent]; exact Bool.false_ne_true))

theorem Blocks.ensureDirectory {path : Path} {above : Disk → Disk × Option FileError} {disk : Disk}
    (hblocks : Blocks path above disk) :
    ∃ error, Disk.ensureDirectory path above disk = (disk, some error) := by
  obtain ⟨⟨error, herror, habove⟩, habsent⟩ := hblocks
  have hrefused := makeOrFind_of_not_isDirectory herror habsent
  rw [ensureDirectory_eq, herror]
  split
  · rename_i hmissing
    have hstay := habove (Except.error.inj hmissing)
    split
    · rename_i prepared hprepared
      rw [hprepared] at hstay
      obtain rfl : prepared = disk := hstay
      exact ⟨_, hrefused⟩
    · rename_i hfailed
      cases hfailure : (above disk).2 with
      | none => exact (hfailed _ (Prod.ext rfl hfailure)).elim
      | some failure => exact ⟨failure, Prod.ext hstay hfailure⟩
  · exact ⟨error, hrefused⟩

theorem makeOrFind_blocks {path : Path} {above : Disk → Disk × Option FileError} {disk : Disk}
    (habove : disk.makeDirectory path = .error .missing → (above disk).1 = disk) :
    (∃ made, makeOrFind path disk = (made, none) ∧ made.isDirectory path = true) ∨
      ∃ error, makeOrFind path disk = (disk, some error) ∧ Blocks path above disk := by
  cases hmake : disk.makeDirectory path with
  | ok made =>
      refine Or.inl ⟨made, ?_, (makeDirectory_eq_ok hmake).2⟩
      rw [makeOrFind, hmake]
  | error error =>
      cases habsent : disk.isDirectory path with
      | true => exact Or.inl ⟨disk, makeOrFind_of_isDirectory habsent, habsent⟩
      | false =>
          have hrefused : error = .missing → (above disk).1 = disk := by
            rintro rfl
            exact habove hmake
          exact Or.inr ⟨error, makeOrFind_of_not_isDirectory hmake habsent,
            ⟨error, hmake, hrefused⟩, habsent⟩

/-- What stands in the way of the directory above stands in the way of the path. -/
theorem blocks_of_above {path : Path} {above : Disk → Disk × Option FileError} {disk : Disk}
    (hleads : ∀ disk place, disk.LeadsTo path place → (above disk).2 = none)
    (hstay : (above disk).1 = disk) (hfails : (above disk).2.isSome = true) :
    Blocks path above disk := by
  have hnowhere (place : Location) : ¬ disk.LeadsTo path place := by
    intro hplace
    rw [hleads disk place hplace] at hfails
    cases hfails
  refine ⟨?_, ?_⟩
  · cases hmake : disk.makeDirectory path with
    | ok made =>
        obtain ⟨place, hvacancy, -⟩ := makeDirectory_eq_ok_iff.mp hmake
        exact absurd (vacancy_eq_ok hvacancy).2 (hnowhere place)
    | error error => exact ⟨error, rfl, fun _ => hstay⟩
  · rw [Bool.eq_false_iff]
    intro hdirectory
    obtain ⟨place, hfollow, -⟩ := isDirectory_iff.mp hdirectory
    exact hnowhere place (leadsTo_of_follow hfollow)

theorem ensureDirectory_settles {path : Path} {above : Disk → Disk × Option FileError}
    (habove : Settles above)
    (hleads : ∀ disk place, disk.LeadsTo path place → (above disk).2 = none) :
    Settles (ensureDirectory path above) := by
  intro disk
  have hends : (∃ made, ensureDirectory path above disk = (made, none) ∧
        made.isDirectory path = true) ∨
      ∃ last error, ensureDirectory path above disk = (last, some error) ∧
        Blocks path above last := by
    rw [ensureDirectory_eq]
    split
    · obtain ⟨hstay, hsame⟩ := habove disk
      split
      · rename_i prepared hprepared
        rw [hprepared] at hstay
        rcases makeOrFind_blocks fun _ => hstay with hmade | ⟨error, hrefused, hblocks⟩
        · exact Or.inl hmade
        · exact Or.inr ⟨prepared, error, hrefused, hblocks⟩
      · rename_i hfailed
        cases hfailure : (above disk).2 with
        | none => exact (hfailed _ (Prod.ext rfl hfailure)).elim
        | some failure =>
            rw [hfailure] at hsame
            exact Or.inr ⟨_, failure, Prod.ext rfl hfailure, blocks_of_above hleads hstay hsame⟩
    · rename_i hnot
      have hpath : disk.makeDirectory path = .error .missing → (above disk).1 = disk :=
        fun hmissing => absurd hmissing hnot
      rcases makeOrFind_blocks hpath with hmade | ⟨error, hrefused, hblocks⟩
      · exact Or.inl hmade
      · exact Or.inr ⟨disk, error, hrefused, hblocks⟩
  rcases hends with ⟨made, hmade, hfound⟩ | ⟨last, error, hlast, hblocks⟩
  · rw [hmade, ensureDirectory_of_isDirectory above hfound]
    exact ⟨rfl, rfl⟩
  · obtain ⟨again, hagain⟩ := hblocks.ensureDirectory
    rw [hlast, hagain]
    exact ⟨rfl, rfl⟩

theorem makeAbove_settles {backwards : List Path.Component}
    (hway : Path.IsWay backwards.reverse) : Settles (makeAbove backwards) := by
  induction backwards with
  | nil => exact fun _ => ⟨rfl, rfl⟩
  | cons last front ih =>
      have hcomponents := (Path.components_ofComponents hway).1
      rw [List.reverse_cons] at hway
      refine ensureDirectory_settles (ih hway.of_concat) fun disk place hleads => ?_
      have hnone := makeAbove_of_leadsTo hleads
      rwa [hcomponents, List.reverse_reverse] at hnone

/-- A directory that is made once more is found as it is or is refused again. -/
theorem makeDirectories_settles (path : Path) : Settles (makeDirectories · path) :=
  ensureDirectory_settles (makeAbove_settles (isWay_dropLast path))
    fun _ _ hleads => makeAbove_of_leadsTo hleads

end Disk

end StyleDoc
