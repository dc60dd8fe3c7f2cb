import Mathlib.Data.List.DropRight
import Mathlib.Data.Nat.Find
import Mathlib.Order.Bounds.Basic
import StyleDoc.Stylesheet

/-!
Which lines make up the comment block of a declaration. The walk upward has two reasons to stop,
a blank line and a line that is no comment, but a blank line is never a comment line, so the block
is the longest run of comment lines that ends directly above the declaration. A header is no
comment line either; it bounds every run below it, and therefore two declarations never claim the
same line.
-/

namespace StyleDoc

open Text

namespace Comment

/-- The first character after the indentation already tells a comment line. -/
theorem dropBlanks_of_covers {line : Line} (hcovers : covers line = true) :
    ∃ c rest, dropBlanks line = c :: rest ∧ (c = '/' ∨ c = '*') := by
  unfold covers at hcovers
  split at hcovers
  · exact ⟨_, _, by assumption, Or.inl rfl⟩
  · exact ⟨_, _, by assumption, Or.inl rfl⟩
  · exact ⟨_, _, by assumption, Or.inr rfl⟩
  · exact ⟨_, _, by assumption, Or.inr rfl⟩
  · cases hcovers

theorem isBlankLine_eq_false_of_covers {line : Line} (hcovers : covers line = true) :
    isBlankLine line = false := by
  obtain ⟨c, rest, hdrop, _⟩ := dropBlanks_of_covers hcovers
  rw [Bool.eq_false_iff]
  intro hblank
  have hnil : dropBlanks line = [] := by
    simpa [dropBlanks, isBlankLine] using hblank
  rw [hnil] at hdrop
  cases hdrop

/-- No line is both a header and part of a comment. -/
theorem ofLine?_eq_none_of_covers {line : Line} (hcovers : covers line = true) :
    Declaration.ofLine? line = none := by
  obtain ⟨c, rest, hdrop, hc⟩ := dropBlanks_of_covers hcovers
  rcases hc with rfl | rfl <;>
    simp [Declaration.ofLine?, hdrop, Declaration.keyword?, Kind.keyword, literal?]

end Comment

namespace Block

/-- The lines from number `start` on, up to but not including number `index`, are all comment
lines. -/
def IsRun (lines : List Line) (index start : Nat) : Prop :=
  start ≤ index ∧
    ∀ n, start ≤ n → n < index → ∃ line, lines[n]? = some line ∧ Comment.covers line = true

/-- The blank line test never decides where the walk ends: such a line is no comment line. -/
theorem collect_eq_rtakeWhile (collected higher : List Line) :
    collect collected higher =
      higher.reverse.rtakeWhile Comment.covers ++ collected := by
  induction higher generalizing collected with
  | nil => rfl
  | cons line higher ih =>
      cases hcovers : Comment.covers line with
      | false => simp [collect, hcovers, List.rtakeWhile]
      | true =>
          have hblank := Comment.isBlankLine_eq_false_of_covers hcovers
          simp [collect, hcovers, hblank, ih, List.rtakeWhile]

theorem above_eq_rtakeWhile (lines : List Line) (index : Nat) :
    above lines index = (lines.take index).rtakeWhile Comment.covers := by
  simp [above, collect_eq_rtakeWhile]

theorem rtakeWhile_append_of_forall {α : Type} (accepts : α → Bool)
    (front back : List α) (hback : ∀ x ∈ back, accepts x = true) :
    (front ++ back).rtakeWhile accepts = front.rtakeWhile accepts ++ back := by
  unfold List.rtakeWhile
  rw [List.reverse_append, List.takeWhile_append_of_pos (by simpa using hback)]
  simp

/-- The empty run is one, so there is always a least start. -/
theorem exists_isLeast_isRun (lines : List Line) (index : Nat) :
    ∃ start, IsLeast {n | IsRun lines index n} start := by
  classical
  have hself : IsRun lines index index := ⟨Nat.le_refl _, by omega⟩
  have hsome : ∃ n, IsRun lines index n := ⟨index, hself⟩
  exact ⟨Nat.find hsome, Nat.find_spec hsome, fun n hn => Nat.find_min' hsome hn⟩

/-- A run that cannot be made longer has no comment line in front of it. -/
theorem not_covers_of_isLeast {lines : List Line} {index start : Nat}
    (hstart : IsLeast {n | IsRun lines index n} (start + 1)) :
    ∀ line, lines[start]? = some line → Comment.covers line = false := by
  intro line hline
  rw [Bool.eq_false_iff]
  intro hcovers
  have hlonger : IsRun lines index start := by
    refine ⟨by have := hstart.1.1; omega, ?_⟩
    intro n hn hindex
    rcases Nat.eq_or_lt_of_le hn with rfl | hlater
    · exact ⟨line, hline, hcovers⟩
    · exact hstart.1.2 n hlater hindex
  have := hstart.2 hlonger
  omega

/-- The located block is the longest run of comment lines that ends above the line. -/
theorem above_eq_drop_of_isLeast {lines : List Line} {index start : Nat}
    (hindex : index ≤ lines.length) (hstart : IsLeast {n | IsRun lines index n} start) :
    above lines index = (lines.take index).drop start := by
  have hback : ∀ line ∈ (lines.take index).drop start, Comment.covers line = true := by
    intro line hmem
    obtain ⟨n, hn⟩ := List.mem_iff_getElem?.mp hmem
    rw [List.getElem?_drop, List.getElem?_take] at hn
    split at hn
    · obtain ⟨found, hfound, hcovers⟩ := hstart.1.2 (start + n) (by omega) (by assumption)
      rw [hn] at hfound
      cases hfound
      exact hcovers
    · cases hn
  have hfront : ((lines.take index).take start).rtakeWhile Comment.covers = [] := by
    rw [List.rtakeWhile_eq_nil_iff]
    intro hne
    cases start with
    | zero => simp at hne
    | succ start =>
        have hle : start + 1 ≤ index := hstart.1.1
        have hlast : (lines.take index).take (start + 1) =
            lines.take start ++ [lines[start]] := by
          rw [List.take_take, Nat.min_eq_left hle, List.take_succ_eq_append_getElem]
        simp only [hlast, List.getLast_append_singleton, Bool.not_eq_true]
        exact not_covers_of_isLeast hstart _ (List.getElem?_eq_getElem _)
  rw [above_eq_rtakeWhile]
  calc (lines.take index).rtakeWhile Comment.covers
      = ((lines.take index).take start ++ (lines.take index).drop start).rtakeWhile
          Comment.covers := by rw [List.take_append_drop]
    _ = (lines.take index).drop start := by
        rw [rtakeWhile_append_of_forall _ _ _ hback, hfront, List.nil_append]

/-- A run is empty exactly when there is no comment line to begin it with. -/
theorem isLeast_eq_index_iff {lines : List Line} {index start : Nat}
    (hindex : index ≤ lines.length) (hstart : IsLeast {n | IsRun lines index n} start) :
    start = index ↔ index = 0 ∨
      ∃ line, lines[index - 1]? = some line ∧ Comment.covers line = false := by
  constructor
  · rintro rfl
    cases start with
    | zero => exact Or.inl rfl
    | succ previous =>
        have hline : lines[previous]? = some lines[previous] := List.getElem?_eq_getElem _
        exact Or.inr ⟨_, hline, not_covers_of_isLeast hstart _ hline⟩
  · rintro (rfl | ⟨line, hline, hcovers⟩)
    · exact Nat.le_zero.mp hstart.1.1
    · have hle := hstart.1.1
      by_contra hne
      obtain ⟨found, hfound, hyes⟩ := hstart.1.2 (index - 1) (by omega) (by omega)
      rw [hline] at hfound
      cases hfound
      rw [hcovers] at hyes
      cases hyes

/-- Every line of a run is a comment line, so it is neither blank nor a header. -/
theorem IsRun.not_blank_not_header {lines : List Line} {index start n : Nat}
    (hrun : IsRun lines index start) (hfrom : start ≤ n) (hto : n < index) :
    ∃ line, lines[n]? = some line ∧ Comment.isBlankLine line = false ∧
      Declaration.ofLine? line = none := by
  obtain ⟨line, hline, hcovers⟩ := hrun.2 n hfrom hto
  exact ⟨line, hline, Comment.isBlankLine_eq_false_of_covers hcovers,
    Comment.ofLine?_eq_none_of_covers hcovers⟩

theorem locate_eq_error_iff (lines : List Line) (index : Nat) (error : OutOfRange) :
    locate lines index = .error error ↔
      lines.length ≤ index ∧ error = { index, lineCount := lines.length } := by
  unfold locate
  split
  · simp
    omega
  · simp [eq_comm]
    omega

end Block

namespace Stylesheet

/-- Whether the line with the given number is a header. -/
def IsHeader (lines : List Line) (index : Nat) : Prop :=
  ∃ line declaration, lines[index]? = some line ∧ Declaration.ofLine? line = some declaration

/-- The item of the header on the given line, if it is one, when its comment block begins with
line number `start`. -/
def itemAt (lines : List Line) (index start : Nat) : Option Item :=
  (lines[index]?.bind Declaration.ofLine?).map fun declaration =>
    { Block.item ((lines.take index).drop start) with
      kind := declaration.kind
      name := declaration.name }

private theorem filterMap_zipIdx_eq_range {α β : Type} (elements : List α)
    (found : α × Nat → Option β) :
    elements.zipIdx.filterMap found = (List.range elements.length).filterMap fun index =>
      elements[index]?.bind fun element => found (element, index) := by
  induction elements using List.reverseRecOn with
  | nil => rfl
  | append_singleton front last ih =>
      have hsame : ∀ index ∈ List.range front.length,
          (front[index]?.bind fun element => found (element, index)) =
            (front ++ [last])[index]?.bind fun element => found (element, index) := by
        intro index hmem
        rw [List.getElem?_append_left (List.mem_range.mp hmem)]
      rw [List.zipIdx_append, List.filterMap_append, ih, List.length_append,
        List.length_singleton, List.range_succ, List.filterMap_append,
        List.filterMap_congr hsame]
      simp [List.filterMap_cons]

/-- The walk over numbered lines, seen from the numbers. -/
theorem sectionsOfLines_eq_range (lines : List Line) :
    sectionsOfLines lines = (List.range lines.length).filterMap fun index =>
      (lines[index]?.bind Declaration.ofLine?).map fun declaration =>
        { line := index, declaration, comments := Block.above lines index } := by
  unfold sectionsOfLines
  rw [filterMap_zipIdx_eq_range]
  apply List.filterMap_congr
  intro index _
  cases lines[index]? <;> rfl

/-- A header bounds every run that begins above it from going past it. -/
theorem lt_start_of_isHeader {lines : List Line} {index other start : Nat}
    (hheader : IsHeader lines index) (hrun : Block.IsRun lines other start)
    (hbefore : index < other) : index < start := by
  by_contra hge
  obtain ⟨line, declaration, hline, hdeclaration⟩ := hheader
  obtain ⟨found, hfound, _, hnone⟩ :=
    hrun.not_blank_not_header (Nat.le_of_not_lt hge) hbefore
  rw [hline] at hfound
  cases hfound
  rw [hdeclaration] at hnone
  cases hnone

theorem items_eq_filterMap_itemAt (content : String) {start : Nat → Nat}
    (hstart : ∀ index,
      IsLeast {n | Block.IsRun (lines content) index n} (start index)) :
    items content = (List.range (lines content).length).filterMap fun index =>
      itemAt (lines content) index (start index) := by
  unfold items sections
  rw [sectionsOfLines_eq_range, List.map_filterMap]
  apply List.filterMap_congr
  intro index hmem
  have hindex : index ≤ (lines content).length := Nat.le_of_lt (List.mem_range.mp hmem)
  rw [Block.above_eq_drop_of_isLeast hindex (hstart index), Option.map_map]
  rfl

theorem locate_line_of_mem_sections {content : String} {part : Section}
    (hmem : part ∈ sections content) :
    Block.locate (lines content) part.line = .ok part.comments := by
  unfold sections at hmem
  rw [sectionsOfLines_eq_range, List.mem_filterMap] at hmem
  obtain ⟨index, hrange, hpart⟩ := hmem
  obtain ⟨declaration, _, rfl⟩ := Option.map_eq_some_iff.mp hpart
  simp [Block.locate, List.mem_range.mp hrange]

/-- A stylesheet gives one item for each header, in the order of the headers, and each item
documents the lines from the least line number on from which every line above the header is a
comment line. No line is counted twice, no counted line is blank or a header, and the one failure
of locating a block, a line number that is too large, never happens here. -/
theorem items_document_longest_runs (content : String) :
    ∃ start : Nat → Nat,
      (∀ index, IsLeast {n | Block.IsRun (lines content) index n} (start index)) ∧
      items content = ((List.range (lines content).length).filterMap fun index =>
        itemAt (lines content) index (start index)) ∧
      (∀ index ≤ (lines content).length,
        (start index = index ↔ index = 0 ∨ ∃ line,
          (lines content)[index - 1]? = some line ∧ Comment.covers line = false)) ∧
      (∀ index other n, IsHeader (lines content) index → IsHeader (lines content) other →
        start index ≤ n → n < index → start other ≤ n → n < other → index = other) ∧
      (∀ index n, start index ≤ n → n < index → ∃ line, (lines content)[n]? = some line ∧
        Comment.isBlankLine line = false ∧ Declaration.ofLine? line = none) ∧
      (∀ (anyLines : List Line) index error,
        Block.locate anyLines index = .error error ↔
          anyLines.length ≤ index ∧ error = { index, lineCount := anyLines.length }) ∧
      (∀ part ∈ sections content,
        Block.locate (lines content) part.line = .ok part.comments) := by
  choose start hstart using Block.exists_isLeast_isRun (lines content)
  refine ⟨start, hstart, items_eq_filterMap_itemAt content hstart, ?_, ?_, ?_,
    Block.locate_eq_error_iff, fun part => locate_line_of_mem_sections⟩
  · intro index hindex
    exact Block.isLeast_eq_index_iff hindex (hstart index)
  · intro index other n hheader hother hfrom hto hfrom' hto'
    rcases Nat.lt_trichotomy index other with hlt | heq | hgt
    · have := lt_start_of_isHeader hheader (hstart other).1 hlt
      omega
    · exact heq
    · have := lt_start_of_isHeader hother (hstart index).1 hgt
      omega
  · intro index n hfrom hto
    exact (hstart index).1.not_blank_not_header hfrom hto

end Stylesheet

end StyleDoc
