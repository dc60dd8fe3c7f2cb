import Mathlib.Data.List.Sort
import StyleDoc.Inputs

/-!
What inputs are expanded to. The paths are those that the single inputs stand for: named, found in a
directory or matched by a pattern, every one of them is a file. They come strictly in the order of
their components, so that of several spellings with the same components exactly one is there, and
which components are there does not depend on the order of the inputs.
-/

namespace StyleDoc.Inputs

theorem isFile_of_mem_find {disk : Disk} {input : String} {files : List Path}
    {events : List Log.Event} (hfind : find disk input = .ok (files, events)) :
    ∀ path ∈ files, disk.isFile path = true := by
  unfold find at hfind
  dsimp only at hfind
  split at hfind
  · rename_i hfile
    cases hfind
    simpa using hfile
  · split at hfind
    · cases hfind
      intro path hpath
      have hkept := (List.mem_filter.mp hpath).2
      rw [Bool.and_eq_true] at hkept
      exact hkept.1
    · split at hfind
      · cases hfind
      · rename_i pattern _
        cases hfind
        unfold Glob.Pattern.files
        split
        · exact fun path hpath => (List.mem_filter.mp hpath).2
        · simp

/-- An input that is not a malformed pattern. -/
def IsValid (disk : Disk) (input : String) : Prop :=
  ∃ found events, find disk input = .ok (found, events)

/-- The components of a path that an input stands for. -/
def Finds (disk : Disk) (input : String) (components : List Path.Component) : Prop :=
  ∃ found events, find disk input = .ok (found, events) ∧ components ∈ found.map Path.components

theorem findAll_cons_eq_ok_iff {disk : Disk} {input : String} {inputs : List String}
    {files : List Path} :
    (findAll disk (input :: inputs)).2 = .ok files ↔
      ∃ found events more, find disk input = .ok (found, events) ∧
        (findAll disk inputs).2 = .ok more ∧ files = found ++ more := by
  rw [findAll]
  cases hfind : find disk input with
  | error invalid => simp
  | ok result =>
      obtain ⟨found, events⟩ := result
      cases hmore : (findAll disk inputs).2 with
      | error invalid => simp [hmore, Except.map]
      | ok more =>
          simp only [hmore, Except.map, Except.ok.injEq]
          constructor
          · rintro rfl
            exact ⟨found, events, more, rfl, rfl, rfl⟩
          · rintro ⟨_, _, _, ⟨⟩, rfl, rfl⟩
            rfl

theorem mem_iff_of_findAll {disk : Disk} {inputs : List String} {files : List Path}
    (hfiles : (findAll disk inputs).2 = .ok files) (path : Path) :
    path ∈ files ↔ ∃ input ∈ inputs, ∃ found events,
      find disk input = .ok (found, events) ∧ path ∈ found := by
  induction inputs generalizing files with
  | nil =>
      cases hfiles
      simp
  | cons input inputs ih =>
      obtain ⟨found, events, more, hfind, hmore, rfl⟩ := findAll_cons_eq_ok_iff.mp hfiles
      rw [List.mem_append, ih hmore, List.exists_mem_cons_iff]
      refine or_congr_left ⟨fun hpath => ⟨found, events, hfind, hpath⟩, ?_⟩
      rintro ⟨_, _, hagain, hpath⟩
      cases hfind.symm.trans hagain
      exact hpath

/-- One invalid input is enough to make all of them fail, wherever it stands. -/
theorem exists_findAll_iff (disk : Disk) (inputs : List String) :
    (∃ files, (findAll disk inputs).2 = .ok files) ↔ ∀ input ∈ inputs, IsValid disk input := by
  induction inputs with
  | nil => simp [findAll]
  | cons input inputs ih =>
      rw [List.forall_mem_cons, ← ih]
      constructor
      · rintro ⟨files, hfiles⟩
        obtain ⟨found, events, more, hfind, hmore, -⟩ := findAll_cons_eq_ok_iff.mp hfiles
        exact ⟨⟨found, events, hfind⟩, more, hmore⟩
      · rintro ⟨⟨found, events, hfind⟩, more, hmore⟩
        exact ⟨_, findAll_cons_eq_ok_iff.mpr ⟨found, events, more, hfind, hmore, rfl⟩⟩

theorem mem_place {new path : Path} {paths : List Path} (hpath : path ∈ place new paths) :
    path = new ∨ path ∈ paths := by
  induction paths with
  | nil => exact Or.inl (List.mem_singleton.mp hpath)
  | cons other paths ih =>
      unfold place at hpath
      split at hpath
      · exact List.mem_cons.mp hpath
      · exact Or.inr hpath
      · rcases List.mem_cons.mp hpath with rfl | hlater
        · exact Or.inr List.mem_cons_self
        · exact (ih hlater).imp_right (List.mem_cons_of_mem _)

theorem mem_foldl_place {path : Path} {paths arranged : List Path}
    (hpath : path ∈ paths.foldl (fun arranged path => place path arranged) arranged) :
    path ∈ arranged ∨ path ∈ paths := by
  induction paths generalizing arranged with
  | nil => exact Or.inl hpath
  | cons new paths ih =>
      rcases ih hpath with hplaced | hlater
      · rcases mem_place hplaced with rfl | hbefore
        · exact Or.inr List.mem_cons_self
        · exact Or.inl hbefore
      · exact Or.inr (List.mem_cons_of_mem _ hlater)

theorem mem_of_mem_arrange {path : Path} {paths : List Path} (hpath : path ∈ arrange paths) :
    path ∈ paths :=
  (mem_foldl_place hpath).resolve_left List.not_mem_nil

/-- The new path is there under its own spelling or under one with the same components, and so is
every path that was there before. -/
theorem mem_components_place {new : Path} {paths : List Path} {components : List Path.Component} :
    components ∈ (place new paths).map Path.components ↔
      components = new.components ∨ components ∈ paths.map Path.components := by
  induction paths with
  | nil => simp [place]
  | cons other paths ih =>
      unfold place
      split
      · rw [List.map_cons, List.mem_cons]
      · rename_i hequal
        have hsame := Std.LawfulEqOrd.eq_of_compare hequal
        rw [hsame, List.map_cons, List.mem_cons, ← or_assoc, or_self]
      · rw [List.map_cons, List.mem_cons, ih, List.map_cons, List.mem_cons, or_left_comm]

theorem mem_components_arrange {paths : List Path} {components : List Path.Component} :
    components ∈ (arrange paths).map Path.components ↔ components ∈ paths.map Path.components := by
  have hfoldl (arranged : List Path) :
      components ∈ (paths.foldl (fun arranged path => place path arranged) arranged).map
          Path.components ↔
        components ∈ arranged.map Path.components ∨ components ∈ paths.map Path.components := by
    induction paths generalizing arranged with
    | nil => simp
    | cons new paths ih =>
        rw [List.foldl_cons, ih, mem_components_place, List.map_cons, List.mem_cons, or_assoc,
          or_left_comm]
  rw [arrange, hfoldl, List.map_nil]
  exact or_iff_right List.not_mem_nil

/-- Paths strictly in the order of their components. -/
def Increasing (paths : List Path) : Prop :=
  paths.Pairwise fun path later => compare path.components later.components = .lt

theorem Increasing.cons {new other : Path} {paths : List Path}
    (hlt : compare new.components other.components = .lt) (hpaths : Increasing (other :: paths)) :
    Increasing (new :: other :: paths) := by
  have hlater := (List.pairwise_cons.mp hpaths).1
  refine List.pairwise_cons.mpr ⟨List.forall_mem_cons.mpr ⟨hlt, fun later hmem => ?_⟩, hpaths⟩
  exact Std.TransCmp.lt_trans hlt (hlater later hmem)

theorem Increasing.place {paths : List Path} (hpaths : Increasing paths) (new : Path) :
    Increasing (place new paths) := by
  induction paths with
  | nil => exact List.pairwise_singleton _ _
  | cons other paths ih =>
      obtain ⟨hother, hrest⟩ := List.pairwise_cons.mp hpaths
      unfold Inputs.place
      split
      · rename_i hlt
        exact Increasing.cons hlt hpaths
      · exact hpaths
      · rename_i hgt
        refine List.pairwise_cons.mpr ⟨fun later hlater => ?_, ih hrest⟩
        rcases mem_place hlater with rfl | hbefore
        · exact Std.OrientedCmp.lt_of_gt hgt
        · exact hother later hbefore

theorem arrange_increasing (paths : List Path) : Increasing (arrange paths) := by
  have hfoldl (arranged : List Path) (harranged : Increasing arranged) :
      Increasing (paths.foldl (fun arranged path => place path arranged) arranged) := by
    induction paths generalizing arranged with
    | nil => exact harranged
    | cons new paths ih => exact ih _ (harranged.place new)
  exact hfoldl [] List.Pairwise.nil

theorem Increasing.components_ne {paths : List Path} (hpaths : Increasing paths) :
    paths.Pairwise fun path later => path.components ≠ later.components := by
  refine hpaths.imp fun hlt hsame => ?_
  rw [hsame, Std.ReflOrd.compare_self] at hlt
  cases hlt

theorem Increasing.components_ne_of_append {front rest : List Path} {earlier later : Path}
    (hpaths : Increasing (front ++ later :: rest)) (hearlier : earlier ∈ front) :
    earlier.components ≠ later.components :=
  (List.pairwise_append.mp hpaths.components_ne).2.2 earlier hearlier later List.mem_cons_self

theorem Increasing.nodup {paths : List Path} (hpaths : Increasing paths) :
    (paths.map Path.components).Nodup :=
  List.pairwise_map.mpr hpaths.components_ne

/-- Strictly ordered paths are determined, up to spelling, by the components that occur. -/
theorem Increasing.components_eq {paths others : List Path} (hpaths : Increasing paths)
    (hothers : Increasing others)
    (hsame : ∀ components, components ∈ paths.map Path.components ↔
      components ∈ others.map Path.components) :
    paths.map Path.components = others.map Path.components := by
  have hperm := (List.perm_ext_iff_of_nodup hpaths.nodup hothers.nodup).mpr hsame
  have hordered {paths : List Path} (hpaths : Increasing paths) :
      (paths.map Path.components).Pairwise fun first second => compare first second = .lt :=
    List.pairwise_map.mpr hpaths
  refine hperm.eq_of_pairwise (fun first second _ _ hlt hgt => ?_) (hordered hpaths)
    (hordered hothers)
  exact absurd hgt (Std.OrientedCmp.not_lt_of_lt hlt)

theorem expand_eq_ok_iff {disk : Disk} {inputs : List String} {paths : List Path} :
    (expand disk inputs).2 = .ok paths ↔
      ∃ files, (findAll disk inputs).2 = .ok files ∧ paths = arrange files := by
  unfold expand
  dsimp only
  cases (findAll disk inputs).2 <;> simp [Except.map, eq_comm]

theorem isFile_of_mem_expand {disk : Disk} {inputs : List String} {paths : List Path}
    (hexpand : (expand disk inputs).2 = .ok paths) :
    ∀ path ∈ paths, disk.isFile path = true := by
  obtain ⟨files, hfiles, rfl⟩ := expand_eq_ok_iff.mp hexpand
  intro path hpath
  obtain ⟨input, -, found, events, hfind, hfound⟩ :=
    (mem_iff_of_findAll hfiles path).mp (mem_of_mem_arrange hpath)
  exact isFile_of_mem_find hfind path hfound

theorem increasing_of_expand {disk : Disk} {inputs : List String} {paths : List Path}
    (hexpand : (expand disk inputs).2 = .ok paths) : Increasing paths := by
  obtain ⟨files, -, rfl⟩ := expand_eq_ok_iff.mp hexpand
  exact arrange_increasing files

theorem exists_expand_iff (disk : Disk) (inputs : List String) :
    (∃ paths, (expand disk inputs).2 = .ok paths) ↔ ∀ input ∈ inputs, IsValid disk input := by
  rw [← exists_findAll_iff]
  constructor
  · rintro ⟨paths, hexpand⟩
    obtain ⟨files, hfiles, -⟩ := expand_eq_ok_iff.mp hexpand
    exact ⟨files, hfiles⟩
  · rintro ⟨files, hfiles⟩
    exact ⟨arrange files, expand_eq_ok_iff.mpr ⟨files, hfiles, rfl⟩⟩

/-- The components that are found do not depend on which of the inputs finds them. -/
theorem mem_components_expand {disk : Disk} {inputs : List String} {paths : List Path}
    (hexpand : (expand disk inputs).2 = .ok paths) (components : List Path.Component) :
    components ∈ paths.map Path.components ↔ ∃ input ∈ inputs, Finds disk input components := by
  obtain ⟨files, hfiles, rfl⟩ := expand_eq_ok_iff.mp hexpand
  rw [mem_components_arrange, List.mem_map]
  simp only [mem_iff_of_findAll hfiles, Finds, List.mem_map]
  constructor
  · rintro ⟨path, ⟨input, hinput, found, events, hfind, hpath⟩, hcomponents⟩
    exact ⟨input, hinput, found, events, hfind, path, hpath, hcomponents⟩
  · rintro ⟨input, hinput, found, events, hfind, path, hpath, hcomponents⟩
    exact ⟨path, ⟨input, hinput, found, events, hfind, hpath⟩, hcomponents⟩

/-- Inputs that find the same are expanded to paths with the same components. -/
theorem components_eq_of_expand {disk other : Disk} {inputs others : List String}
    {paths found : List Path} (hpaths : (expand disk inputs).2 = .ok paths)
    (hfound : (expand other others).2 = .ok found)
    (hfinds : ∀ components, (∃ input ∈ inputs, Finds disk input components) ↔
      ∃ input ∈ others, Finds other input components) :
    paths.map Path.components = found.map Path.components := by
  apply (increasing_of_expand hpaths).components_eq (increasing_of_expand hfound)
  intro components
  rw [mem_components_expand hpaths, mem_components_expand hfound, hfinds components]

end StyleDoc.Inputs
