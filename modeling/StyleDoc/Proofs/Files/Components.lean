import StyleDoc.Proofs.Files.Names

/-!
What the components of a path tell about the place it leads to. Spellings with the same components
may differ in whether they can be followed at all, as a slash at the end asks for a directory; but
where they can, they lead to one place, on every disk. The converse holds for paths that start from
the same place and are led on by names alone. The name at the end of a path is the name of the
place. Slashes that follow one another and dots between slashes change neither the components nor
the place.
-/

namespace StyleDoc

namespace Path

/-- Where a component leads to from a place. A single dot stays there. -/
def Component.next (place : Location) : Component → Location
  | .root => []
  | .here => place
  | .parent => place.dropLast
  | .name text => place ++ [text]

theorem isAbsolute_slash (front back : String) :
    isAbsolute { text := front ++ "/" ++ back } = isAbsolute { text := front ++ "/" } := by
  simp [isAbsolute, List.head?_append]

section Superfluous

variable (front back : String) {superfluous : String}

theorem segments_superfluous
    (hsuperfluous : superfluous = "" ∨ superfluous = ".") :
    segments { text := front ++ "/" ++ superfluous ++ "/" ++ back } =
      segments { text := front } ++ superfluous :: segments { text := back } := by
  have hsegment : segments { text := superfluous } = [superfluous] := by
    rcases hsuperfluous with rfl | rfl <;> decide
  rw [segments_slash, segments_slash, hsegment, List.append_assoc, List.singleton_append]

theorem isAbsolute_superfluous (superfluous : String) :
    isAbsolute { text := front ++ "/" ++ superfluous ++ "/" ++ back } =
      isAbsolute { text := front ++ "/" ++ back } := by
  have htext : front ++ "/" ++ superfluous ++ "/" ++ back =
      front ++ "/" ++ (superfluous ++ "/" ++ back) := by
    simp only [String.append_assoc]
  rw [htext, isAbsolute_slash, isAbsolute_slash front back]

/-- Slashes that follow one another and dots between slashes do not count. -/
theorem components_superfluous (hsuperfluous : superfluous = "" ∨ superfluous = ".") :
    components { text := front ++ "/" ++ superfluous ++ "/" ++ back } =
      components { text := front ++ "/" ++ back } := by
  have hne : segments { text := front } ≠ [] := segments_ne_nil _
  have hdropped : Component.ofSegment? superfluous = none := by
    rcases hsuperfluous with rfl | rfl <;> rfl
  rw [components_eq_append, components_eq_append, isAbsolute_superfluous,
    segments_superfluous front back hsuperfluous, segments_slash,
    List.head?_append_of_ne_nil _ hne, List.head?_append_of_ne_nil _ hne, List.filterMap_append,
    List.filterMap_append, List.filterMap_cons_none hdropped]

end Superfluous

/-- A path that is led on by names alone. -/
def IsStraight (path : Path) : Prop :=
  ∀ component ∈ path.components, component ≠ .here ∧ component ≠ .parent

/-- Straight paths that start from the same place. -/
structure Comparable (path other : Path) : Prop where
  start : path.isAbsolute = other.isAbsolute
  first : path.IsStraight
  second : other.IsStraight

theorem IsStraight.exists_names {path : Path} (hstraight : path.IsStraight) :
    ∃ names : List String,
      path.components = (if path.isAbsolute then [.root] else []) ++ names.map .name := by
  unfold IsStraight at hstraight
  rw [components_eq_append] at hstraight ⊢
  have hname : ∀ component ∈ path.segments.filterMap Component.ofSegment?,
      Component.name component.label = component := by
    intro component hmem
    obtain ⟨segment, -, hread⟩ := List.mem_filterMap.mp hmem
    have hparent := (hstraight component (List.mem_append_right _ hmem)).2
    unfold Component.ofSegment? at hread
    split at hread
    · cases hread
    · split at hread
      · exact absurd (Option.some.inj hread).symm hparent
      · rw [← Option.some.inj hread]
        rfl
  have hhere : Component.here ∉ if path.isAbsolute then [Component.root]
      else if path.segments.head? = some "." then [.here] else [] :=
    fun hmem => (hstraight .here (List.mem_append_left _ hmem)).1 rfl
  have hnames : ((path.segments.filterMap Component.ofSegment?).map Component.label).map .name =
      path.segments.filterMap Component.ofSegment? := by
    rw [List.map_map]
    exact (List.map_congr_left hname).trans (List.map_id' _)
  refine ⟨(path.segments.filterMap Component.ofSegment?).map Component.label, ?_⟩
  rw [hnames]
  split
  · rfl
  · rename_i hrelative
    split
    · rename_i hdot
      simp [hrelative, hdot] at hhere
    · rfl

end Path

namespace Disk

theorem advance_eq_elim (place : Location) (segment : String) :
    advance place segment =
      (Path.Component.ofSegment? segment).elim place (Path.Component.next place) := by
  unfold advance Path.Component.ofSegment?
  split
  · rfl
  · split <;> rfl

/-- Segments that do not count as components do not lead anywhere else. -/
theorem foldl_advance (segments : List String) (place : Location) :
    segments.foldl advance place =
      (segments.filterMap Path.Component.ofSegment?).foldl Path.Component.next place := by
  induction segments generalizing place with
  | nil => rfl
  | cons segment segments ih =>
      rw [List.foldl_cons, ih, advance_eq_elim]
      cases hsegment : Path.Component.ofSegment? segment with
      | none => rw [List.filterMap_cons_none hsegment, Option.elim_none]
      | some component =>
          rw [List.filterMap_cons_some hsegment, Option.elim_some, List.foldl_cons]

theorem eq_foldl_advance_of_foldlM_step {disk : Disk} {segments : List String}
    {place target : Location} (htarget : segments.foldlM disk.step place = .ok target) :
    target = segments.foldl advance place := by
  induction segments generalizing place with
  | nil => exact (Except.ok.inj htarget).symm
  | cons segment segments ih =>
      obtain ⟨next, hnext, htarget⟩ := Except.bind_eq_ok_iff.mp htarget
      rw [List.foldl_cons, ← (step_eq_ok_iff.mp hnext).2]
      exact ih htarget

/-- A path that can be followed leads to the place that its components spell. -/
theorem eq_foldl_next_of_follow {disk : Disk} {path : Path} {target : Location}
    (htarget : disk.follow path = .ok target) :
    target = path.components.foldl Path.Component.next disk.here := by
  unfold follow at htarget
  split at htarget
  · cases htarget
  · rw [eq_foldl_advance_of_foldlM_step htarget, foldl_advance]
    rw [Path.components_eq_append, List.foldl_append, start]
    split
    · rfl
    · split <;> rfl

/-- What does not count makes no difference to where a path leads. -/
theorem follow_superfluous (disk : Disk) (front back : String) {superfluous : String}
    (hsuperfluous : superfluous = "" ∨ superfluous = ".") :
    disk.follow { text := front ++ "/" ++ superfluous ++ "/" ++ back } =
      disk.follow { text := front ++ "/" ++ back } := by
  have hnonempty (first last : String) : first ++ "/" ++ last ≠ "" := by
    intro hempty
    simpa using congrArg String.toList hempty
  -- the segments behind also ask for a directory, so a place without one stops both paths
  have hsteps (place : Location) :
      ((superfluous :: Path.segments { text := back }).foldlM disk.step place) =
        (Path.segments { text := back }).foldlM disk.step place := by
    obtain ⟨segment, segments, hsegments⟩ :=
      List.exists_cons_of_ne_nil (Path.segments_ne_nil { text := back })
    rw [hsegments, List.foldlM_cons, List.foldlM_cons, step, step]
    cases hplace : disk.get? place with
    | none => rfl
    | some entry =>
        cases entry with
        | file bytes => rfl
        | directory =>
            rcases hsuperfluous with rfl | rfl <;> simp [step, hplace, bind, Except.bind]
  rw [follow, follow, if_neg (hnonempty _ _), if_neg (hnonempty _ _), start, start,
    Path.isAbsolute_superfluous, Path.segments_superfluous front back hsuperfluous,
    Path.segments_slash, List.foldlM_append, List.foldlM_append, funext hsteps]

theorem eq_of_follow_of_components_eq {disk : Disk} {path other : Path} {place target : Location}
    (hcomponents : path.components = other.components) (hplace : disk.follow path = .ok place)
    (htarget : disk.follow other = .ok target) : place = target := by
  rw [eq_foldl_next_of_follow hplace, eq_foldl_next_of_follow htarget, hcomponents]

/-- Names lead down to the place that they are the rest of. -/
theorem foldl_next_names (names : List String) (place : Location) :
    (names.map Path.Component.name).foldl Path.Component.next place = place ++ names := by
  induction names generalizing place with
  | nil => exact (List.append_nil place).symm
  | cons name names ih =>
      rw [List.map_cons, List.foldl_cons, ih]
      exact List.append_cons place name names |>.symm

/-- Straight paths from one start lead to the same place only if they have the same components. -/
theorem components_eq_of_follow_eq {disk : Disk} {path other : Path} {place : Location}
    (hcomparable : path.Comparable other) (hplace : disk.follow path = .ok place)
    (hother : disk.follow other = .ok place) : path.components = other.components := by
  obtain ⟨names, hnames⟩ := hcomparable.first.exists_names
  obtain ⟨others, hothers⟩ := hcomparable.second.exists_names
  have hstart := hcomparable.start
  have hsame := (eq_foldl_next_of_follow hplace).symm.trans (eq_foldl_next_of_follow hother)
  rw [hnames, hothers, hstart, List.foldl_append, List.foldl_append, foldl_next_names,
    foldl_next_names, List.append_cancel_left_eq] at hsame
  rw [hnames, hothers, hstart, hsame]

theorem getLast?_of_follow {disk : Disk} {path : Path} {name : String} {place : Location}
    (hname : path.fileName? = some name) (hplace : disk.follow path = .ok place) :
    place.getLast? = some name := by
  unfold Path.fileName? at hname
  split at hname
  · rename_i text hlast
    obtain rfl := Option.some.inj hname
    obtain ⟨front, hfront⟩ := List.getLast?_eq_some_iff.mp hlast
    rw [eq_foldl_next_of_follow hplace, hfront, List.foldl_append]
    exact List.getLast?_concat
  · cases hname

end Disk

end StyleDoc
