import Mathlib.Data.List.Destutter
import StyleDoc.Proofs.Regeneration

/-!
What a list of inputs is expanded to, without the order in which it is put together. The paths that
the inputs stand for are sorted by their components, and of neighbors with the same components the
first is kept. As paths with the same components are next to each other in that order, none is left
twice: the order is strict, and what is there is what some input stands for. The files are put in
their places one by one, which comes to the same list.
-/

namespace StyleDoc

namespace Inputs

/-- Whether a path does not come after another one. -/
def notAfter (path other : Path) : Bool :=
  (compare path.components other.components).isLE

/-- Of paths with the same components that are next to each other, the first. -/
def dropRepeated (paths : List Path) : List Path :=
  paths.destutter fun path next => path.components ≠ next.components

/-- The first spelling of some components. -/
def spelling? (paths : List Path) (components : List Path.Component) : Option Path :=
  paths.find? fun path => path.components = components

theorem dropRepeated_cons_of_eq {first next : Path} (hsame : first.components = next.components)
    (rest : List Path) : dropRepeated (first :: next :: rest) = dropRepeated (first :: rest) := by
  rw [dropRepeated, dropRepeated, List.destutter_cons', List.destutter_cons',
    List.destutter'_cons_neg rest (not_not_intro hsame)]

theorem dropRepeated_cons_of_ne {first next : Path} (hne : first.components ≠ next.components)
    (rest : List Path) :
    dropRepeated (first :: next :: rest) = first :: dropRepeated (next :: rest) := by
  rw [dropRepeated, dropRepeated, List.destutter_cons', List.destutter_cons',
    List.destutter'_cons_pos rest hne]

theorem notAfter_trans (first second third : Path) (hsecond : notAfter first second = true)
    (hthird : notAfter second third = true) : notAfter first third = true :=
  Std.TransCmp.isLE_trans hsecond hthird

theorem notAfter_total (path other : Path) :
    (notAfter path other || notAfter other path) = true := by
  have hswap : compare other.components path.components =
      (compare path.components other.components).swap := Std.OrientedCmp.eq_swap
  rw [notAfter, notAfter, hswap]
  cases compare path.components other.components <;> rfl

theorem notAfter_of_components_eq {path other : Path} (hsame : path.components = other.components) :
    notAfter path other = true := by
  rw [notAfter, hsame, Std.ReflOrd.compare_self]
  rfl

/-- Paths that the order does not tell apart have the same components. -/
theorem lt_of_notAfter {path other : Path} (hle : notAfter path other = true)
    (hne : path.components ≠ other.components) :
    compare path.components other.components = .lt := by
  rcases Ordering.isLE_iff_eq_lt_or_eq_eq.mp hle with hlt | heq
  · exact hlt
  · exact absurd (Std.LawfulEqOrd.eq_of_compare heq) hne

section Spellings

variable {components : List Path.Component}

theorem spelling?_eq_none {paths : List Path}
    (hpaths : ∀ path ∈ paths, path.components ≠ components) : spelling? paths components = none :=
  List.find?_eq_none.mpr fun path hpath hsame => hpaths path hpath (of_decide_eq_true hsame)

theorem spelling?_append (paths others : List Path) :
    spelling? (paths ++ others) components =
      (spelling? paths components).or (spelling? others components) :=
  List.find?_append

theorem spelling?_cons_self (path : Path) (paths : List Path) :
    spelling? (path :: paths) path.components = some path :=
  List.find?_cons_of_pos (decide_eq_true rfl)

theorem spelling?_cons_of_ne {path : Path} (hne : path.components ≠ components)
    (paths : List Path) : spelling? (path :: paths) components = spelling? paths components :=
  List.find?_cons_of_neg (by simpa using hne)

theorem Increasing.spelling?_eq {paths : List Path} (hpaths : Increasing paths) {path : Path}
    (hpath : path ∈ paths) : spelling? paths path.components = some path := by
  induction paths with
  | nil => cases hpath
  | cons other paths ih =>
      obtain ⟨hother, hrest⟩ := List.pairwise_cons.mp hpaths.components_ne
      rcases List.mem_cons.mp hpath with rfl | hlater
      · exact spelling?_cons_self path paths
      · rw [spelling?_cons_of_ne (hother path hlater),
          ih (List.pairwise_cons.mp hpaths).2 hlater]

/-- Strictly ordered paths are determined by the spelling that each of them has. -/
theorem Increasing.eq_of_spelling? {paths others : List Path} (hpaths : Increasing paths)
    (hothers : Increasing others)
    (hsame : ∀ components, spelling? paths components = spelling? others components) :
    paths = others := by
  have hmem (paths : List Path) (components : List Path.Component) :
      components ∈ paths.map Path.components ↔ (spelling? paths components).isSome := by
    simp [spelling?]
  have hcomponents : paths.map Path.components = others.map Path.components := by
    refine hpaths.components_eq hothers fun components => ?_
    rw [hmem, hmem, hsame]
  have hspelled {paths : List Path} (hpaths : Increasing paths) :
      paths.map some = (paths.map Path.components).map (spelling? paths) := by
    rw [List.map_map]
    exact List.map_congr_left fun path hpath => (hpaths.spelling?_eq hpath).symm
  have hfind : spelling? paths = spelling? others := funext hsame
  apply List.map_injective_iff.mpr (Option.some_injective Path)
  rw [hspelled hpaths, hspelled hothers, hcomponents, hfind]

/-- A path that is put in its place does not replace an earlier spelling. -/
theorem spelling?_place {paths : List Path} (hpaths : Increasing paths) (new : Path) :
    spelling? (place new paths) components =
      (spelling? paths components).or (spelling? [new] components) := by
  induction paths with
  | nil => rfl
  | cons other paths ih =>
      obtain ⟨-, hrest⟩ := List.pairwise_cons.mp hpaths
      unfold place
      split
      · rename_i hlt
        by_cases hnew : new.components = components
        · subst hnew
          have hnew := (List.pairwise_cons.mp (Increasing.cons hlt hpaths).components_ne).1
          have hnone : spelling? (other :: paths) new.components = none :=
            spelling?_eq_none fun later hlater => (hnew later hlater).symm
          rw [spelling?_cons_self, spelling?_cons_self, hnone, Option.none_or]
        · rw [spelling?_cons_of_ne hnew, spelling?_cons_of_ne hnew]
          exact (Option.or_none ..).symm
      · rename_i hequal
        have hsame : new.components = other.components := Std.LawfulEqOrd.eq_of_compare hequal
        by_cases hnew : new.components = components
        · rw [← hnew, hsame, spelling?_cons_self, Option.some_or]
        · rw [spelling?_cons_of_ne hnew]
          exact (Option.or_none ..).symm
      · by_cases hother : other.components = components
        · subst hother
          rw [spelling?_cons_self, spelling?_cons_self, Option.some_or]
        · rw [spelling?_cons_of_ne hother, spelling?_cons_of_ne hother, ih hrest]

theorem spelling?_arrange (paths : List Path) :
    spelling? (arrange paths) components = spelling? paths components := by
  have hfoldl (arranged : List Path) (harranged : Increasing arranged) :
      spelling? (paths.foldl (fun arranged path => place path arranged) arranged) components =
        (spelling? arranged components).or (spelling? paths components) := by
    induction paths generalizing arranged with
    | nil => exact (Option.or_none ..).symm
    | cons new paths ih =>
        have happend : spelling? (new :: paths) components =
            (spelling? [new] components).or (spelling? paths components) :=
          spelling?_append [new] paths
        rw [List.foldl_cons, ih _ (harranged.place new), spelling?_place harranged, happend,
          Option.or_assoc]
  exact hfoldl [] List.Pairwise.nil

/-- Sorting keeps the order of the spellings of one path. -/
theorem spelling?_mergeSort (paths : List Path) :
    spelling? (paths.mergeSort notAfter) components = spelling? paths components := by
  let spells : Path → Bool := fun path => path.components = components
  have hordered : (paths.filter spells).Pairwise fun path later => notAfter path later = true := by
    refine List.pairwise_of_forall_mem_list fun path hpath later hlater => ?_
    have hspells := of_decide_eq_true (List.mem_filter.mp hpath).2
    have hother := of_decide_eq_true (List.mem_filter.mp hlater).2
    exact notAfter_of_components_eq (hspells.trans hother.symm)
  have hstable : (paths.filter spells).Sublist (paths.mergeSort notAfter) :=
    List.sublist_mergeSort notAfter_trans notAfter_total hordered List.filter_sublist
  have hkept : (paths.filter spells).Sublist ((paths.mergeSort notAfter).filter spells) := by
    simpa using hstable.filter spells
  have hlength := ((List.mergeSort_perm paths notAfter).filter spells).length_eq
  have hfilter := hkept.eq_of_length hlength.symm
  rw [spelling?, spelling?, ← List.head?_filter, ← List.head?_filter, ← hfilter]

theorem spelling?_dropRepeated (paths : List Path) :
    spelling? (dropRepeated paths) components = spelling? paths components := by
  cases paths with
  | nil => rfl
  | cons first rest =>
      induction rest generalizing first with
      | nil => rfl
      | cons next rest ih =>
          by_cases hfirst : first.components = components
          · subst hfirst
            rw [spelling?_cons_self]
            by_cases hsame : first.components = next.components
            · rw [dropRepeated_cons_of_eq hsame, ih first, spelling?_cons_self]
            · rw [dropRepeated_cons_of_ne hsame, spelling?_cons_self]
          · rw [spelling?_cons_of_ne hfirst]
            by_cases hsame : first.components = next.components
            · rw [dropRepeated_cons_of_eq hsame, ih first, spelling?_cons_of_ne hfirst,
                spelling?_cons_of_ne (hsame ▸ hfirst)]
            · rw [dropRepeated_cons_of_ne hsame, spelling?_cons_of_ne hfirst, ih next]

end Spellings

/-- In a sorted list the spellings of one path are next to each other, so none of them is left
behind another one. -/
theorem increasing_dropRepeated {paths : List Path}
    (hpaths : paths.Pairwise fun path later => notAfter path later = true) :
    Increasing (dropRepeated paths) := by
  cases paths with
  | nil => exact List.Pairwise.nil
  | cons first rest =>
      induction rest generalizing first with
      | nil => exact List.pairwise_singleton _ _
      | cons next rest ih =>
          obtain ⟨hfirst, hrest⟩ := List.pairwise_cons.mp hpaths
          by_cases hsame : first.components = next.components
          · rw [dropRepeated_cons_of_eq hsame]
            refine ih first (List.pairwise_cons.mpr ⟨fun later hlater => ?_, ?_⟩)
            · exact hfirst later (List.mem_cons_of_mem _ hlater)
            · exact (List.pairwise_cons.mp hrest).2
          · rw [dropRepeated_cons_of_ne hsame]
            refine List.pairwise_cons.mpr ⟨fun later hlater => ?_, ih next hrest⟩
            have hnext := lt_of_notAfter (hfirst next List.mem_cons_self) hsame
            rcases List.mem_cons.mp ((List.destutter_sublist _ _).subset hlater) with rfl | hmem
            · exact hnext
            · exact Std.TransCmp.lt_of_lt_of_isLE hnext ((List.pairwise_cons.mp hrest).1 later hmem)

/-- Putting paths in their places one by one is to sort them and to drop what is repeated. -/
theorem arrange_eq_dropRepeated (paths : List Path) :
    arrange paths = dropRepeated (paths.mergeSort notAfter) := by
  have hsorted := List.pairwise_mergeSort notAfter_trans notAfter_total paths
  refine (arrange_increasing paths).eq_of_spelling? (increasing_dropRepeated hsorted) ?_
  intro components
  rw [spelling?_arrange, spelling?_dropRepeated, spelling?_mergeSort]

/-- The ways in which an input stands for a file whose path has the same components: it is a file, a
directory that has the file directly inside it, or, if it is neither of them, a pattern. -/
inductive StandsFor (disk : Disk) (input : String) (path : Path) : Prop
  | itself (hfile : disk.isFile { text := input } = true)
      (hsame : path.components = Path.components { text := input }) : StandsFor disk input path
  | inside {folder : Location} {name : String}
      (hfollow : disk.follow { text := input } = .ok folder)
      (hdirectory : disk.get? folder = some .directory)
      (hinside : (disk.get? (folder ++ [name])).isSome)
      (hfile : disk.isFile (Path.join { text := input } name) = true)
      (hsame : path.components = (Path.join { text := input } name).components)
      (hextension : path.extension? = some "scss" ∨ path.extension? = some "sass") :
      StandsFor disk input path
  | matched {pattern : Glob.Pattern} {found : Path}
      (hnofile : disk.isFile { text := input } = false)
      (hnodirectory : disk.isDirectory { text := input } = false)
      (hpattern : Glob.Pattern.ofText input = .ok pattern) (hmatch : found ∈ pattern.files disk)
      (hsame : path.components = found.components) : StandsFor disk input path

section Missing

variable {disk : Disk} {input : String} (hnofile : disk.isFile { text := input } = false)
  (hnodirectory : disk.isDirectory { text := input } = false)

include hnofile hnodirectory

theorem find_of_pattern {pattern : Glob.Pattern}
    (hpattern : Glob.Pattern.ofText input = .ok pattern) :
    find disk input = .ok (pattern.files disk,
      if (pattern.files disk).isEmpty then [.nothingMatched input] else []) := by
  rw [find]
  dsimp only
  rw [hnofile, hnodirectory, if_neg Bool.false_ne_true, if_neg Bool.false_ne_true, hpattern]

theorem find_of_malformed {error : Glob.Malformed}
    (herror : Glob.Pattern.ofText input = .error error) :
    find disk input = .error { pattern := input, error } := by
  rw [find]
  dsimp only
  rw [hnofile, hnodirectory, if_neg Bool.false_ne_true, if_neg Bool.false_ne_true, herror]

/-- An input that is not there finds something only as a pattern. -/
theorem exists_pattern_of_find {found : List Path} {events : List Log.Event}
    (hfind : find disk input = .ok (found, events)) :
    ∃ pattern, Glob.Pattern.ofText input = .ok pattern ∧ found = pattern.files disk := by
  cases hread : Glob.Pattern.ofText input with
  | error error =>
      rw [find_of_malformed hnofile hnodirectory hread] at hfind
      cases hfind
  | ok pattern =>
      rw [find_of_pattern hnofile hnodirectory hread] at hfind
      cases hfind
      exact ⟨pattern, rfl, rfl⟩

end Missing

/-- Whether a file is a stylesheet is told by its components. -/
theorem isStylesheet_iff_of_components_eq {path found : Path}
    (hsame : path.components = found.components) :
    isStylesheet found = true ↔
      path.extension? = some "scss" ∨ path.extension? = some "sass" := by
  have hextension : path.extension? = found.extension? := by
    rw [Path.extension?, Path.extension?, Path.fileName?, Path.fileName?, hsame]
  rw [isStylesheet, hextension]
  cases found.extension? <;> simp [extensions]

theorem finds_iff_standsFor (disk : Disk) (input : String) (path : Path) :
    Finds disk input path.components ↔ StandsFor disk input path := by
  constructor
  · intro hfinds
    by_cases hfile : disk.isFile { text := input } = true
    · exact .itself hfile ((finds_iff_of_isFile hfile _).mp hfinds)
    · by_cases hdirectory : disk.isDirectory { text := input } = true
      · obtain ⟨found, hfound, hsame⟩ := (finds_iff_of_isDirectory hdirectory _).mp hfinds
        obtain ⟨hchild, hkept⟩ := List.mem_filter.mp hfound
        obtain ⟨name, hname, rfl⟩ := List.mem_map.mp hchild
        rw [Bool.and_eq_true] at hkept
        obtain ⟨folder, hfollow, hplace⟩ := Disk.isDirectory_iff.mp hdirectory
        obtain ⟨place, hagain, hinside⟩ := Disk.mem_children_iff.mp hname
        obtain rfl : folder = place := Except.ok.inj (hfollow.symm.trans hagain)
        exact .inside hfollow hplace hinside hkept.1 hsame.symm
          ((isStylesheet_iff_of_components_eq hsame.symm).mp hkept.2)
      · rw [Bool.not_eq_true] at hfile hdirectory
        obtain ⟨found, events, hfind, hmem⟩ := hfinds
        obtain ⟨pattern, hpattern, rfl⟩ := exists_pattern_of_find hfile hdirectory hfind
        obtain ⟨found, hmatch, hsame⟩ := List.mem_map.mp hmem
        exact .matched hfile hdirectory hpattern hmatch hsame.symm
  · rintro (⟨hfile, hsame⟩ |
      @⟨folder, name, hfollow, hplace, hinside, hfile, hsame, hextension⟩ |
      ⟨hnofile, hnodirectory, hpattern, hmatch, hsame⟩)
    · exact (finds_iff_of_isFile hfile _).mpr hsame
    · have hdirectory := Disk.isDirectory_iff.mpr ⟨_, hfollow, hplace⟩
      have hchild := Disk.mem_children_iff.mpr ⟨_, hfollow, hinside⟩
      have hstylesheet := (isStylesheet_iff_of_components_eq hsame).mpr hextension
      have hfound : Path.join { text := input } name ∈ inDirectory disk { text := input } := by
        refine List.mem_filter.mpr ⟨List.mem_map_of_mem hchild, ?_⟩
        rw [Bool.and_eq_true]
        exact ⟨hfile, hstylesheet⟩
      exact (finds_iff_of_isDirectory hdirectory _).mpr ⟨_, hfound, hsame.symm⟩
    · have hfind := find_of_pattern hnofile hnodirectory hpattern
      exact ⟨_, _, hfind, List.mem_map.mpr ⟨_, hmatch, hsame.symm⟩⟩

/-- Only an input that is neither a file nor a directory has to be a well formed pattern. -/
theorem isValid_iff (disk : Disk) (input : String) :
    IsValid disk input ↔
      (disk.isFile { text := input } = false → disk.isDirectory { text := input } = false →
        ∃ pattern, Glob.Pattern.ofText input = .ok pattern) := by
  constructor
  · rintro ⟨found, events, hfind⟩ hnofile hnodirectory
    obtain ⟨pattern, hpattern, -⟩ := exists_pattern_of_find hnofile hnodirectory hfind
    exact ⟨pattern, hpattern⟩
  · intro hpattern
    by_cases hfile : disk.isFile { text := input } = true
    · exact ⟨_, _, find_of_isFile hfile⟩
    · by_cases hdirectory : disk.isDirectory { text := input } = true
      · exact ⟨_, _, find_of_isDirectory hdirectory⟩
      · rw [Bool.not_eq_true] at hfile hdirectory
        obtain ⟨pattern, hread⟩ := hpattern hfile hdirectory
        exact ⟨_, _, find_of_pattern hfile hdirectory hread⟩

/-- What it means that some paths are those that a list of inputs stands for. -/
structure IsExpansion (disk : Disk) (inputs : List String) (paths : List Path) : Prop where
  increasing : Increasing paths
  files : ∀ path ∈ paths, disk.isFile path = true
  mem_iff : ∀ path, (∃ found ∈ paths, found.components = path.components) ↔
    ∃ input ∈ inputs, StandsFor disk input path
  sorted : ∃ found, (findAll disk inputs).2 = .ok found ∧
    paths = dropRepeated (found.mergeSort notAfter)

/-- The expansion fails only at a malformed pattern that is not there as a file or a directory. If
it succeeds, it yields the files that the inputs stand for, each under one spelling and strictly in
the order of their components. -/
theorem expand_exact (disk : Disk) (inputs : List String) :
    ((∃ paths, (expand disk inputs).2 = .ok paths) ↔
        ∀ input ∈ inputs, disk.isFile { text := input } = false →
          disk.isDirectory { text := input } = false →
            ∃ pattern, Glob.Pattern.ofText input = .ok pattern) ∧
      ∀ paths, (expand disk inputs).2 = .ok paths → IsExpansion disk inputs paths := by
  constructor
  · rw [exists_expand_iff]
    exact forall₂_congr fun input _ => isValid_iff disk input
  · intro paths hexpand
    refine ⟨increasing_of_expand hexpand, isFile_of_mem_expand hexpand, fun path => ?_, ?_⟩
    · have hmem := mem_components_expand hexpand path.components
      rw [List.mem_map] at hmem
      rw [hmem]
      simp only [finds_iff_standsFor]
    · obtain ⟨found, hfound, rfl⟩ := expand_eq_ok_iff.mp hexpand
      exact ⟨found, hfound, arrange_eq_dropRepeated found⟩

/-- A file whose name is no pattern, and a directory with two stylesheets among other entries. -/
def bracketDisk : Disk where
  here := []
  entries :=
    [(["["], .file .empty), (["lib"], .directory), (["lib", "b.scss"], .file .empty),
      (["lib", "a.sass"], .file .empty), (["lib", "c.css"], .file .empty),
      (["lib", "d.scss"], .directory), (["lib", "d.scss", "e.scss"], .file .empty)]

/-- Three of these find the same file, in two spellings. -/
def bracketInputs : List String :=
  ["lib//b.scss", "l?b/*", "[", "lib/"]

theorem expand_exact_brackets :
    Glob.Pattern.ofText "[" = .error { position := 0, fault := .invalidRange } ∧
      (expand bracketDisk bracketInputs).2 =
        .ok [⟨"["⟩, ⟨"lib/a.sass"⟩, ⟨"lib//b.scss"⟩, ⟨"lib/c.css"⟩] ∧
      IsExpansion bracketDisk bracketInputs
        [⟨"["⟩, ⟨"lib/a.sass"⟩, ⟨"lib//b.scss"⟩, ⟨"lib/c.css"⟩] ∧
      ∃ paths, (expand bracketDisk ["lib", "["]).2 = .ok paths := by
  have hmalformed : Glob.Pattern.ofText "[" = .error { position := 0, fault := .invalidRange } := by
    decide +kernel
  have hexpand : (expand bracketDisk bracketInputs).2 =
      .ok [⟨"["⟩, ⟨"lib/a.sass"⟩, ⟨"lib//b.scss"⟩, ⟨"lib/c.css"⟩] := by
    decide +kernel
  have hthere : bracketDisk.isDirectory ⟨"lib"⟩ = true ∧ bracketDisk.isFile ⟨"["⟩ = true := by
    decide +kernel
  refine ⟨hmalformed, hexpand, (expand_exact bracketDisk bracketInputs).2 _ hexpand, ?_⟩
  apply (expand_exact bracketDisk ["lib", "["]).1.mpr
  intro input hinput hnofile hnodirectory
  simp only [List.mem_cons, List.not_mem_nil, or_false] at hinput
  rcases hinput with rfl | rfl
  · rw [hthere.1] at hnodirectory
    cases hnodirectory
  · rw [hthere.2] at hnofile
    cases hnofile

end Inputs

end StyleDoc
