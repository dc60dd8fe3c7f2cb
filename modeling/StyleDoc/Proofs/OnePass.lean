import StyleDoc.Proofs.BlockFields
import StyleDoc.Proofs.Sections

/-!
A stylesheet read once from top to bottom. Looking upward from every header can be turned into one
pass that carries the comment lines directly above the place it has come to: a comment line prolongs
them, any other line clears them, and a header takes them for its documentation. Nothing else is
carried along, so what a text says below a line that is no comment does not depend on what stands
above that line.
-/

namespace StyleDoc

open Text

/-- The documentation of a declaration that has the given lines for its comment block. -/
def Declaration.item (declaration : Declaration) (comments : List Line) : Item :=
  { Block.item comments with
    kind := declaration.kind
    name := declaration.name }

theorem Block.tags_append (front back : List Line) :
    Block.tags (front ++ back) = Block.tags front ++ Block.tags back :=
  List.filterMap_append

namespace Stylesheet

/-- The comment lines directly above the line after the given one, when `run` are those above it. -/
def prolong (run : List Line) (line : Line) : List Line :=
  if Comment.covers line then run ++ [line] else []

/-- The items of lines that are read below a run of comment lines. -/
def itemsBelow : List Line → List Line → List Item
  | _, [] => []
  | run, line :: rest =>
      ((Declaration.ofLine? line).map (·.item run)).toList ++ itemsBelow (prolong run line) rest

theorem rtakeWhile_concat_covers (front : List Line) (line : Line) :
    (front ++ [line]).rtakeWhile Comment.covers =
      prolong (front.rtakeWhile Comment.covers) line := by
  cases hcovers : Comment.covers line with
  | true => rw [List.rtakeWhile_concat_pos _ _ _ hcovers, prolong, if_pos hcovers]
  | false =>
      have hplain : ¬ Comment.covers line = true := by simp [hcovers]
      rw [List.rtakeWhile_concat_neg _ _ _ hplain, prolong, if_neg hplain]

/-- The walk upward from a header meets the run that the pass has carried to it. The induction is
on the lines still to be read; those that have been read are the ones the walk can look at. -/
theorem filterMap_zipIdx_eq_itemsBelow (front back : List Line) :
    (back.zipIdx front.length).filterMap (fun (line, index) =>
        (Declaration.ofLine? line).map fun declaration =>
          declaration.item (Block.above (front ++ back) index)) =
      itemsBelow (front.rtakeWhile Comment.covers) back := by
  induction back generalizing front with
  | nil => rfl
  | cons line back ih =>
      have hrest := ih (front ++ [line])
      rw [List.length_append, List.length_singleton, List.append_assoc, List.singleton_append,
        rtakeWhile_concat_covers] at hrest
      have habove : Block.above (front ++ line :: back) front.length =
          front.rtakeWhile Comment.covers := by
        rw [Block.above_eq_rtakeWhile, List.take_left]
      rw [List.zipIdx_cons, List.filterMap_cons, hrest, itemsBelow]
      dsimp only
      rw [habove]
      cases Declaration.ofLine? line <;> rfl

theorem items_eq_itemsBelow (content : String) : items content = itemsBelow [] (lines content) := by
  rw [items, sections, sectionsOfLines, List.map_filterMap,
    ← List.rtakeWhile_nil Comment.covers, ← filterMap_zipIdx_eq_itemsBelow]
  refine List.filterMap_congr fun (line, index) _ => ?_
  rw [Option.map_map]
  rfl

theorem itemsBelow_append (run front back : List Line) :
    itemsBelow run (front ++ back) =
      itemsBelow run front ++ itemsBelow (front.foldl prolong run) back := by
  induction front generalizing run with
  | nil => rfl
  | cons line front ih =>
      rw [List.cons_append, itemsBelow, ih, itemsBelow, List.append_assoc, List.foldl_cons]

/-- Comment lines are no headers; they are only put behind the run. -/
theorem itemsBelow_comments_append (run : List Line) {comments : List Line}
    (hcomments : ∀ line ∈ comments, Comment.covers line = true) (rest : List Line) :
    itemsBelow run (comments ++ rest) = itemsBelow (run ++ comments) rest := by
  induction comments generalizing run with
  | nil => rw [List.nil_append, List.append_nil]
  | cons line comments ih =>
      obtain ⟨hline, hcomments⟩ := List.forall_mem_cons.mp hcomments
      rw [List.cons_append, itemsBelow, Comment.ofLine?_eq_none_of_covers hline, prolong,
        if_pos hline, ih _ hcomments, List.append_assoc, List.singleton_append]
      rfl

/-- Of the comment lines above it a text only sees the tags. -/
theorem itemsBelow_congr {run other : List Line} (htags : Block.tags run = Block.tags other)
    (rest : List Line) : itemsBelow run rest = itemsBelow other rest := by
  induction rest generalizing run other with
  | nil => rfl
  | cons line rest ih =>
      have hitem (declaration : Declaration) : declaration.item run = declaration.item other := by
        rw [Declaration.item, Block.item_eq_ofTags, htags, ← Block.item_eq_ofTags]
        rfl
      have hnext : Block.tags (prolong run line) = Block.tags (prolong other line) := by
        unfold prolong
        split
        · rw [Block.tags_append, Block.tags_append, htags]
        · rfl
      rw [itemsBelow, itemsBelow, ih hnext, funext hitem]

/-- Below lines that do not end in a comment line nothing is carried along. -/
theorem foldl_prolong_eq_nil {front : List Line}
    (hlast : ∀ line ∈ front.getLast?, Comment.covers line = false) :
    front.foldl prolong [] = [] := by
  rcases List.eq_nil_or_concat front with rfl | ⟨above, line, rfl⟩
  · rfl
  · have hplain := hlast line (by simp)
    rw [List.concat_eq_append, List.foldl_append, List.foldl_cons, List.foldl_nil, prolong,
      if_neg (by simp [hplain])]

/-- A text whose lines are all ended, and whose last one is no comment line, can be put in front of
any other text without either of them being read differently. -/
theorem items_append (front back : String)
    (hended : front = "" ∨ front.toList.getLast? = some '\n')
    (hlast : ∀ line ∈ (lines front).getLast?, Comment.covers line = false) :
    items (front ++ back) = items front ++ items back := by
  have hcut : lines (front ++ back) = lines front ++ lines back := by
    rw [lines, String.toList_append]
    exact lines_append (hended.imp_left (congrArg String.toList)) back.toList
  rw [items_eq_itemsBelow, items_eq_itemsBelow, items_eq_itemsBelow, hcut, itemsBelow_append,
    foldl_prolong_eq_nil hlast]

/-- A block comment that is never closed does not reach past the brace below it. -/
theorem items_append_rule :
    let front := "/* Tools\r\n@mixin one \x7b\r\n\x7d\r\n"
    let back := " * Second\n@function two() \x7b\x7d"
    (front = "" ∨ front.toList.getLast? = some '\n') ∧
      (∀ line ∈ (lines front).getLast?, Comment.covers line = false) ∧
      items (front ++ back) = items front ++ items back := by
  intro front back
  have hended : front = "" ∨ front.toList.getLast? = some '\n' := by decide +kernel
  have hlast : ∀ line ∈ (lines front).getLast?, Comment.covers line = false := by decide +kernel
  exact ⟨hended, hlast, items_append front back hended hlast⟩

end Stylesheet

end StyleDoc
