import Mathlib.Data.List.Induction
import StyleDoc.Proofs.Files.Components

/-!
The way to a path. A path is spelled by its components, and that spelling leads wherever the path
itself does. It only leads on from directories, and the one that its last component leads on from is
spelled by the components before.
-/

namespace StyleDoc

namespace Path

/-- How a component is written between slashes. -/
def Component.segment : Component → String
  | .root => ""
  | .here => "."
  | .parent => ".."
  | .name text => text

/-- A component that counts behind others as it counts by itself. -/
def Component.IsStep (component : Component) : Prop :=
  Component.ofSegment? component.segment = some component ∧ '/' ∉ component.segment.toList

/-- What the components of a path look like: only the first of them may tell where it starts. -/
inductive IsWay : List Component → Prop where
  | nil : IsWay []
  | root : IsWay [.root]
  | here : IsWay [.here]
  | step {front : List Component} {last : Component} (hfront : IsWay front) (hlast : last.IsStep) :
      IsWay (front ++ [last])

theorem IsWay.append {front steps : List Component} (hfront : IsWay front)
    (hsteps : ∀ step ∈ steps, step.IsStep) : IsWay (front ++ steps) := by
  induction steps using List.reverseRecOn with
  | nil => rwa [List.append_nil]
  | append_singleton steps last ih =>
      rw [List.forall_mem_append, List.forall_mem_singleton] at hsteps
      rw [← List.append_assoc]
      exact .step (ih hsteps.1) hsteps.2

theorem IsWay.of_concat {front : List Component} {last : Component}
    (hway : IsWay (front ++ [last])) : IsWay front := by
  generalize hwhole : front ++ [last] = whole at hway
  cases hway with
  | nil => simp at hwhole
  | root | here =>
      obtain ⟨rfl, -⟩ := List.append_inj' (hwhole.trans (List.nil_append _).symm) rfl
      exact .nil
  | step hfront hlast =>
      obtain ⟨rfl, -⟩ := List.append_inj' hwhole rfl
      exact hfront

theorem Component.segment_of_ofSegment? {segment : String} {component : Component}
    (hread : Component.ofSegment? segment = some component) : component.segment = segment := by
  unfold Component.ofSegment? at hread
  split at hread
  · cases hread
  · split at hread
    · rename_i hparent
      cases hread
      exact hparent.symm
    · cases hread
      rfl

theorem isStep_of_mem_segments {path : Path} :
    ∀ step ∈ path.segments.filterMap Component.ofSegment?, step.IsStep := by
  intro step hstep
  obtain ⟨segment, hsegment, hread⟩ := List.mem_filterMap.mp hstep
  obtain ⟨piece, hpiece, rfl⟩ := List.mem_map.mp hsegment
  rw [Component.IsStep, Component.segment_of_ofSegment? hread]
  refine ⟨hread, ?_⟩
  rw [String.toList_ofList]
  exact (Text.not_mem_and_subset_of_mem_splitOn hpiece).1

/-- What the components of a path tell about where it starts. -/
def origin (path : Path) : List Component :=
  if path.isAbsolute then [.root] else if path.segments.head? = some "." then [.here] else []

theorem isWay_components (path : Path) : IsWay path.components := by
  rw [components_eq_append]
  refine IsWay.append ?_ isStep_of_mem_segments
  split
  · exact .root
  · split
    · exact .here
    · exact .nil

theorem segments_of_slash_not_mem {text : String} (hslash : '/' ∉ text.toList) :
    segments { text } = [text] := by
  rw [segments_eq_splitOn, List.splitOn_eq_singleton hslash]
  simp

theorem Component.IsStep.segment_ne {component : Component} (hstep : component.IsStep) :
    component.segment ≠ "" ∧ component.segment ≠ "." := by
  obtain ⟨hread, -⟩ := hstep
  constructor <;>
  · intro hsegment
    rw [hsegment] at hread
    cases hread

/-- A step by itself is a path of one component. -/
theorem components_segment {component : Component} (hstep : component.IsStep) :
    components { text := component.segment } = [component] := by
  obtain ⟨hne, hdot⟩ := hstep.segment_ne
  have habsolute : isAbsolute { text := component.segment } = false := by
    rw [isAbsolute, beq_eq_false_iff_ne]
    intro hhead
    exact hstep.2 (List.mem_of_head? hhead)
  rw [components_eq_append, segments_of_slash_not_mem hstep.2, habsolute]
  simp [hdot, hstep.1]

/-- A step behind a directory is one more component. -/
theorem components_join {directory : Path} (hdirectory : directory.text ≠ "")
    {component : Component} (hstep : component.IsStep) :
    (directory.join component.segment).components = directory.components ++ [component] := by
  obtain ⟨front, trailing, hsegments, htrailing, hjoin⟩ := segments_join hdirectory hstep.2
  have hnone : trailing.filterMap Component.ofSegment? = [] := by
    rw [List.filterMap_eq_nil_iff]
    intro segment hsegment
    rw [htrailing segment hsegment]
    rfl
  have hhead : (front ++ [component.segment]).head? = some "." ↔
      (front ++ trailing).head? = some "." := by
    cases front with
    | cons first front => rfl
    | nil =>
        cases trailing with
        | nil => exact absurd hsegments (segments_ne_nil directory)
        | cons first trailing => simp [hstep.segment_ne.2, htrailing first List.mem_cons_self]
  rw [components_eq_append, components_eq_append, isAbsolute_join hdirectory, hjoin, hsegments,
    if_congr hhead rfl rfl, List.filterMap_append, List.filterMap_append, hnone, List.append_nil,
    List.filterMap_cons_some hstep.1, List.filterMap_nil, List.append_assoc]

theorem join_ne_empty {directory : Path} {name : String} (hname : name ≠ "") :
    (directory.join name).text ≠ "" := by
  unfold join
  split <;> simp [String.append_eq_empty_iff, hname]

theorem ofComponents_concat (front : List Component) {last : Component} (hlast : last.IsStep) :
    ofComponents (front ++ [last]) = (ofComponents front).join last.segment := by
  rw [ofComponents, List.foldl_append]
  cases last with
  | root | here => cases hlast.1
  | parent | name text => rfl

/-- Paths that are spelled by their components have these components. -/
theorem components_ofComponents {components : List Component} (hway : IsWay components) :
    (ofComponents components).components = components ∧
      (components ≠ [] → (ofComponents components).text ≠ "") := by
  induction hway with
  | nil | root | here => decide
  | @step front last hfront hlast ih =>
      rw [ofComponents_concat front hlast]
      refine ⟨?_, fun _ => join_ne_empty hlast.segment_ne.1⟩
      by_cases hnone : front = []
      · subst hnone
        exact components_segment hlast
      · rw [components_join (ih.2 hnone) hlast, ih.1]

end Path

namespace Disk

/-- The place that the components of a path lead to, where nothing needs to be yet. -/
def LeadsTo (disk : Disk) (path : Path) (place : Location) : Prop :=
  ((path.segments.filterMap Path.Component.ofSegment?).map Path.Component.segment).foldlM disk.step
    (disk.start path) = .ok place

/-- Segments that do not count may be left out: they only ask for the directory that is there. -/
theorem foldlM_step_components {disk : Disk} {segments : List String} {place target : Location}
    (htarget : segments.foldlM disk.step place = .ok target) :
    ((segments.filterMap Path.Component.ofSegment?).map Path.Component.segment).foldlM disk.step
      place = .ok target := by
  induction segments generalizing place with
  | nil => exact htarget
  | cons segment segments ih =>
      obtain ⟨next, hnext, hrest⟩ := Except.bind_eq_ok_iff.mp htarget
      cases hread : Path.Component.ofSegment? segment with
      | none =>
          have hstay : next = place := by
            rw [(step_eq_ok_iff.mp hnext).2, advance_eq_elim, hread]
            rfl
          rw [List.filterMap_cons_none hread, ← hstay]
          exact ih hrest
      | some component =>
          rw [List.filterMap_cons_some hread, List.map_cons,
            Path.Component.segment_of_ofSegment? hread]
          exact Except.bind_eq_ok_iff.mpr ⟨next, hnext, ih hrest⟩

theorem leadsTo_of_follow {disk : Disk} {path : Path} {place : Location}
    (hfollow : disk.follow path = .ok place) : disk.LeadsTo path place := by
  unfold follow at hfollow
  split at hfollow
  · cases hfollow
  · exact foldlM_step_components hfollow

/-- A step behind a directory leads on from the place of the directory. -/
theorem follow_join_step {disk : Disk} {directory : Path} {folder : Location}
    {component : Path.Component} (hfollow : disk.follow directory = .ok folder)
    (hstep : component.IsStep) :
    disk.follow (directory.join component.segment) = disk.step folder component.segment := by
  unfold follow at hfollow ⊢
  split at hfollow
  · cases hfollow
  · rename_i hdirectory
    obtain ⟨front, trailing, hsegments, htrailing, hjoin⟩ :=
      Path.segments_join hdirectory hstep.2
    have hstart : disk.start (directory.join component.segment) = disk.start directory := by
      rw [start, start, Path.isAbsolute_join hdirectory]
    rw [hsegments, List.foldlM_append] at hfollow
    obtain ⟨place, hplace, hstay⟩ := Except.bind_eq_ok_iff.mp hfollow
    obtain rfl := eq_of_foldlM_step_of_forall_empty htrailing hstay
    rw [if_neg (Path.join_ne_empty hstep.segment_ne.1), hjoin, hstart, List.foldlM_append, hplace]
    change (disk.step folder component.segment >>= fun place => .ok place) = _
    cases disk.step folder component.segment <;> rfl

theorem follow_segment {disk : Disk} {component : Path.Component} (hstep : component.IsStep) :
    disk.follow { text := component.segment } = disk.step disk.here component.segment := by
  have hrelative : Path.isAbsolute { text := component.segment } = false := by
    rw [Path.isAbsolute, beq_eq_false_iff_ne]
    exact fun hhead => hstep.2 (List.mem_of_head? hhead)
  rw [follow, if_neg hstep.segment_ne.1, Path.segments_of_slash_not_mem hstep.2, start, hrelative]
  change (disk.step disk.here component.segment >>= fun place => .ok place) = _
  cases disk.step disk.here component.segment <;> rfl

/-- What the steps of a path lead to, the path that spells them leads to as well. -/
theorem follow_ofComponents {disk : Disk} (path : Path) {steps : List Path.Component}
    {place : Location} (hsteps : ∀ step ∈ steps, step.IsStep)
    (hplace : (steps.map Path.Component.segment).foldlM disk.step (disk.start path) = .ok place)
    (hdirectory : disk.get? place = some .directory) (hne : path.origin ++ steps ≠ []) :
    disk.follow (.ofComponents (path.origin ++ steps)) = .ok place := by
  induction steps using List.reverseRecOn generalizing place with
  | nil =>
      obtain rfl := Except.ok.inj hplace
      rw [List.append_nil] at hne ⊢
      unfold Path.origin start at *
      split at hne
      · rename_i habsolute
        rw [if_pos habsolute, if_pos habsolute]
        rfl
      · rename_i hrelative
        rw [if_neg hrelative] at hdirectory ⊢
        split at hne
        · rename_i hdot
          rw [if_neg hrelative, if_pos hdot]
          have hstay : disk.step disk.here "." = .ok disk.here :=
            step_eq_ok_iff.mpr ⟨hdirectory, rfl⟩
          exact Except.bind_eq_ok_iff.mpr ⟨_, hstay, rfl⟩
        · exact absurd rfl hne
  | append_singleton steps last ih =>
      rw [List.forall_mem_append, List.forall_mem_singleton] at hsteps
      rw [List.map_append, List.foldlM_append] at hplace
      obtain ⟨between, hbetween, hlast⟩ := Except.bind_eq_ok_iff.mp hplace
      obtain ⟨place, hplace, ⟨⟩⟩ := Except.bind_eq_ok_iff.mp hlast
      rw [← List.append_assoc, Path.ofComponents_concat _ hsteps.2]
      by_cases hnone : path.origin ++ steps = []
      · obtain ⟨horigin, rfl⟩ := List.append_eq_nil_iff.mp hnone
        obtain rfl := Except.ok.inj hbetween
        have hstart : disk.start path = disk.here := by
          rw [start, if_neg]
          intro habsolute
          rw [Path.origin, if_pos habsolute] at horigin
          cases horigin
        rw [hstart] at hplace
        rw [horigin]
        exact (follow_segment hsteps.2).trans hplace
      · have hfollow := ih hsteps.1 hbetween (step_eq_ok_iff.mp hplace).1 hnone
        rw [follow_join_step hfollow hsteps.2, hplace]

/-- A path only leads on from a directory, and that one is spelled by its components without the
last. -/
theorem LeadsTo.isDirectory_above {disk : Disk} {path : Path} {place : Location}
    (hleads : disk.LeadsTo path place) {front : List Path.Component} {last : Path.Component}
    (hcomponents : path.components = front ++ [last]) (hfront : front ≠ []) :
    disk.isDirectory (.ofComponents front) = true := by
  have hsteps : ∀ step ∈ path.segments.filterMap Path.Component.ofSegment?, step.IsStep :=
    Path.isStep_of_mem_segments
  rw [Path.components_eq_append] at hcomponents
  change path.origin ++ _ = _ at hcomponents
  unfold LeadsTo at hleads
  generalize path.segments.filterMap Path.Component.ofSegment? = steps at *
  rcases List.eq_nil_or_concat steps with rfl | ⟨steps, step, rfl⟩
  · rw [List.append_nil] at hcomponents
    have hlength := congrArg List.length hcomponents
    have horigin : path.origin.length ≤ 1 := by
      unfold Path.origin
      split
      · exact Nat.le_refl _
      · split <;> simp
    have hpositive := List.length_pos_iff.mpr hfront
    rw [List.length_append, List.length_singleton] at hlength
    omega
  · rw [List.concat_eq_append] at *
    rw [← List.append_assoc] at hcomponents
    obtain ⟨rfl, -⟩ := List.append_inj' hcomponents rfl
    rw [List.forall_mem_append] at hsteps
    rw [List.map_append, List.foldlM_append] at hleads
    obtain ⟨between, hbetween, hlast⟩ := Except.bind_eq_ok_iff.mp hleads
    obtain ⟨next, hnext, -⟩ := Except.bind_eq_ok_iff.mp hlast
    have hdirectory := (step_eq_ok_iff.mp hnext).1
    exact isDirectory_iff.mpr
      ⟨between, follow_ofComponents path hsteps.1 hbetween hdirectory hfront, hdirectory⟩

theorem LeadsTo.eq_foldl {disk : Disk} {path : Path} {place : Location}
    (hleads : disk.LeadsTo path place) :
    place = path.components.foldl Path.Component.next disk.here := by
  have hcounting : ((path.segments.filterMap Path.Component.ofSegment?).map
      Path.Component.segment).filterMap Path.Component.ofSegment? =
        path.segments.filterMap Path.Component.ofSegment? := by
    rw [List.filterMap_map]
    refine (List.filterMap_congr fun step hstep => ?_).trans List.filterMap_some
    exact (Path.isStep_of_mem_segments step hstep).1
  rw [eq_foldl_advance_of_foldlM_step hleads, foldl_advance, hcounting, Path.components_eq_append,
    List.foldl_append, start]
  split
  · rfl
  · split <;> rfl

end Disk

end StyleDoc
