import StyleDoc.Proofs.Files.Places
import StyleDoc.Proofs.Text.Lines

/-!
Names inside directories. A name without a slash that is put behind the path of a directory is one
more segment of that path, so it leads to a place directly inside the directory; and no part of a
path that counts as a name, nor any part of such a name, holds a slash.
-/

namespace StyleDoc

namespace Path

theorem segments_eq_splitOn (path : Path) :
    path.segments = (path.text.toList.splitOn '/').map String.ofList := rfl

theorem segments_ne_nil (path : Path) : path.segments ≠ [] := by
  rw [segments_eq_splitOn]
  exact mt List.map_eq_nil_iff.mp (List.splitOn_ne_nil _ _)

theorem segments_slash (front back : String) :
    segments { text := front ++ "/" ++ back } =
      segments { text := front } ++ segments { text := back } := by
  have htext : (front ++ "/" ++ back).toList = front.toList ++ '/' :: back.toList := by simp
  simp only [segments_eq_splitOn, htext, List.splitOn_append_cons_self, List.map_append]

/-- A name takes the place of the empty segment behind a slash, or stands behind the last one. -/
theorem segments_join {directory : Path} (hdirectory : directory.text ≠ "") {name : String}
    (hname : '/' ∉ name.toList) :
    ∃ front trailing, directory.segments = front ++ trailing ∧
      (∀ segment ∈ trailing, segment = "") ∧
      (directory.join name).segments = front ++ [name] := by
  have hsplit : name.toList.splitOn '/' = [name.toList] := List.splitOn_eq_singleton hname
  have hne : directory.text.toList ≠ [] := by simpa using hdirectory
  unfold join
  split
  · rename_i hnone
    exact absurd (List.getLast?_eq_none_iff.mp hnone) hne
  · rename_i hslash
    obtain ⟨front, hfront⟩ := List.getLast?_eq_some_iff.mp hslash
    refine ⟨(front.splitOn '/').map String.ofList, [""], ?_, by simp, ?_⟩
    · rw [segments_eq_splitOn, hfront, List.splitOn_append_cons_self, List.splitOn_nil,
        List.map_append]
      rfl
    · rw [segments_eq_splitOn, String.toList_append, hfront, List.append_assoc,
        List.singleton_append, List.splitOn_append_cons_self, hsplit, List.map_append]
      simp
  · refine ⟨directory.segments, [], by simp, by simp, ?_⟩
    rw [segments_slash, segments_eq_splitOn { text := name }, hsplit]
    simp

theorem isAbsolute_join {directory : Path} (hdirectory : directory.text ≠ "") (name : String) :
    (directory.join name).isAbsolute = directory.isAbsolute := by
  have hhead (text : String) : (directory.text ++ text).toList.head? =
      directory.text.toList.head? := by
    rw [String.toList_append]
    exact List.head?_append_of_ne_nil _ (by simpa using hdirectory)
  have hne : directory.text.toList ≠ [] := by simpa using hdirectory
  unfold join isAbsolute
  split
  · rename_i hnone
    exact absurd (List.getLast?_eq_none_iff.mp hnone) hne
  · rw [hhead]
  · rw [String.append_assoc, hhead]

/-- The segments that count, behind what tells where the path starts from. -/
theorem components_eq_append (path : Path) :
    path.components =
      (if path.isAbsolute then [.root]
        else if path.segments.head? = some "." then [.here] else []) ++
          path.segments.filterMap Component.ofSegment? := by
  unfold components
  dsimp only
  split
  · rfl
  · split <;> rfl

theorem slash_not_mem_of_fileName? {path : Path} {name : String}
    (hname : path.fileName? = some name) : '/' ∉ name.toList := by
  unfold fileName? at hname
  split at hname
  · rename_i text hlast
    obtain rfl := Option.some.inj hname
    have hcomponent : Component.name text ∈ path.segments.filterMap Component.ofSegment? := by
      have hmem := List.mem_of_getLast? hlast
      rw [components_eq_append] at hmem
      refine (List.mem_append.mp hmem).resolve_left ?_
      split
      · simp
      · split <;> simp
    obtain ⟨segment, hsegment, hread⟩ := List.mem_filterMap.mp hcomponent
    have hsame : segment = text := by
      unfold Component.ofSegment? at hread
      split at hread
      · cases hread
      · split at hread
        · cases hread
        · simpa using hread
    obtain ⟨piece, hpiece, rfl⟩ := List.mem_map.mp hsegment
    rw [← hsame, String.toList_ofList]
    exact (Text.not_mem_and_subset_of_mem_splitOn hpiece).1
  · cases hname

theorem subset_splitExtension (name : String) : (splitExtension name).1.toList ⊆ name.toList := by
  unfold splitExtension
  dsimp only
  split
  · exact List.Subset.refl _
  · exact List.Subset.refl _
  · rename_i dot front _ hdrop
    have hfront : front <:+ name.toList.reverse :=
      (List.suffix_cons dot front).trans (hdrop ▸ List.dropWhile_suffix _)
    intro c hc
    rw [String.toList_ofList, List.mem_reverse] at hc
    exact List.mem_reverse.mp (hfront.subset hc)

theorem slash_not_mem_stem (path : Path) : '/' ∉ path.stem.toList := by
  unfold stem
  split
  · rename_i name hname
    exact fun hmem => slash_not_mem_of_fileName? hname (subset_splitExtension name hmem)
  · simp

theorem splitExtension_ne_empty {name : String} (hname : name ≠ "") :
    (splitExtension name).1 ≠ "" := by
  unfold splitExtension
  dsimp only
  split
  · exact hname
  · exact hname
  · rename_i dot front hfront hdrop
    have hdot : dot = '.' := by
      have hhead := List.head?_dropWhile_not (· ≠ '.') name.toList.reverse
      rw [hdrop] at hhead
      simpa using hhead
    intro hempty
    have hnil : front = [] := by
      simpa using congrArg String.toList hempty
    exact hfront hdot hnil

end Path

namespace Disk

/-- A name leads from a directory to the place of that name directly inside it. -/
theorem follow_join {disk : Disk} {directory : Path} {folder : Location} {name : String}
    (hfollow : disk.follow directory = .ok folder) (hfolder : disk.get? folder = some .directory)
    (hslash : '/' ∉ name.toList) (hspecial : name ≠ "" ∧ name ≠ "." ∧ name ≠ "..") :
    disk.follow (directory.join name) = .ok (folder ++ [name]) := by
  unfold follow at hfollow
  split at hfollow
  · cases hfollow
  · rename_i hdirectory
    obtain ⟨front, trailing, hsegments, htrailing, hjoin⟩ := Path.segments_join hdirectory hslash
    have hstart : disk.start (directory.join name) = disk.start directory := by
      rw [start, start, Path.isAbsolute_join hdirectory]
    have hne : (directory.join name).text ≠ "" := by
      intro hempty
      have hnil : (directory.join name).segments = [""] := by simp [Path.segments, hempty]
      rw [hnil] at hjoin
      cases front with
      | nil => exact hspecial.1 (List.cons.inj hjoin).1.symm
      | cons segment front => simpa using congrArg List.length hjoin
    rw [hsegments, List.foldlM_append] at hfollow
    obtain ⟨place, hplace, hstay⟩ := Except.bind_eq_ok_iff.mp hfollow
    obtain rfl := eq_of_foldlM_step_of_forall_empty htrailing hstay
    have hstep : disk.step folder name = .ok (folder ++ [name]) :=
      step_eq_ok_iff.mpr ⟨hfolder, by simp [advance, hspecial]⟩
    rw [follow, if_neg hne, hjoin, hstart, List.foldlM_append]
    exact Except.bind_eq_ok_iff.mpr ⟨_, hplace,
      Except.bind_eq_ok_iff.mpr ⟨_, hstep, rfl⟩⟩

/-- The directory that relative paths start from is there, and so are those above it. -/
def IsRooted (disk : Disk) : Prop :=
  ∀ above, above <+: disk.here → disk.get? above = some .directory

theorem IsRooted.mono {disk other : Disk} (hrooted : IsRooted disk)
    (hkeeps : KeepsDirectories disk other) : IsRooted other := by
  intro above habove
  rw [hkeeps.here] at habove
  exact hkeeps.directory above (hrooted above habove)

/-- Whatever a path leads to, all directories above that place are there. -/
theorem get?_above_of_foldlM_step {disk : Disk} {segments : List String} {place target : Location}
    (hplace : ∀ above, above <+: place → above = place ∨ disk.get? above = some .directory)
    (htarget : segments.foldlM disk.step place = .ok target) :
    ∀ above, above <+: target → above = target ∨ disk.get? above = some .directory := by
  induction segments generalizing place with
  | nil => exact Except.ok.inj htarget ▸ hplace
  | cons segment segments ih =>
      obtain ⟨next, hnext, hrest⟩ := Except.bind_eq_ok_iff.mp htarget
      obtain ⟨hdirectory, rfl⟩ := step_eq_ok_iff.mp hnext
      have hall : ∀ above, above <+: place → disk.get? above = some .directory := by
        intro above habove
        rcases hplace above habove with rfl | hfound
        · exact hdirectory
        · exact hfound
      refine ih (fun above habove => ?_) hrest
      rw [advance] at habove ⊢
      split
      · rename_i hstay
        rw [if_pos hstay] at habove
        exact Or.inr (hall above habove)
      · rename_i hmove
        rw [if_neg hmove] at habove
        split
        · rename_i hback
          rw [if_pos hback] at habove
          exact Or.inr (hall above (habove.trans (List.dropLast_prefix place)))
        · rename_i hdown
          rw [if_neg hdown] at habove
          exact (List.prefix_concat_iff.mp habove).imp_right (hall above)

/-- Only a name can lead to a file: single dots stay in a directory and two dots lead back to one. -/
theorem exists_fileName?_of_isFile {disk : Disk} (hrooted : disk.IsRooted) {path : Path}
    (hfile : disk.isFile path = true) : ∃ name, path.fileName? = some name ∧ name ≠ "" := by
  obtain ⟨place, bytes, hfollow, hplace⟩ := isFile_iff.mp hfile
  unfold follow at hfollow
  split at hfollow
  · cases hfollow
  · obtain ⟨front, last, hsegments⟩ := List.eq_nil_or_concat' path.segments |>.resolve_left
      (Path.segments_ne_nil path)
    rw [hsegments, List.foldlM_append] at hfollow
    obtain ⟨parent, hparent, hlast⟩ := Except.bind_eq_ok_iff.mp hfollow
    obtain ⟨target, hstep, htarget⟩ := Except.bind_eq_ok_iff.mp hlast
    obtain rfl := Except.ok.inj htarget
    obtain ⟨hdirectory, rfl⟩ := step_eq_ok_iff.mp hstep
    have hstart : ∀ above, above <+: disk.start path →
        above = disk.start path ∨ disk.get? above = some .directory := by
      intro above habove
      rw [start] at habove ⊢
      split
      · rename_i habsolute
        rw [if_pos habsolute] at habove
        exact Or.inl (List.prefix_nil.mp habove)
      · rename_i hrelative
        rw [if_neg hrelative] at habove
        exact Or.inr (hrooted above habove)
    have habove := get?_above_of_foldlM_step hstart hparent
    rw [advance] at hplace
    split at hplace
    · rw [hdirectory] at hplace
      cases hplace
    · rename_i hcounts
      split at hplace
      · rcases habove _ (List.dropLast_prefix parent) with hroot | hback
        · rw [hroot, hdirectory] at hplace
          cases hplace
        · rw [hback] at hplace
          cases hplace
      · rename_i hname
        have hcomponent : Path.Component.ofSegment? last = some (.name last) := by
          rw [Path.Component.ofSegment?, if_neg hcounts, if_neg hname]
        refine ⟨last, ?_, fun hempty => hcounts (by simp [hempty])⟩
        rw [Path.fileName?, Path.components_eq_append, hsegments, List.filterMap_append,
          List.filterMap_cons_some hcomponent, List.filterMap_nil, ← List.append_assoc,
          List.getLast?_concat]

end Disk

end StyleDoc
