import StyleDoc.Proofs.OnePass
import StyleDoc.Proofs.OuterBlanks

/-!
The styles in which a comment can be written. Two slashes, three slashes and a block in stars put
different marks in front of a text, but all of them set it off with the same space, and the lines
that open and close a block hold no text of their own. The tags of the comment are therefore the
same in every style, whatever the texts look like, and the tags are all that a header below sees.
-/

namespace StyleDoc

open Text

namespace Comment

/-- A way of writing texts as comment lines. -/
inductive Style where
  | slashes
  | tripleSlashes
  | block
  deriving DecidableEq, Repr

/-- The mark in front of every text. -/
def Style.mark : Style → String
  | .slashes => "//"
  | .tripleSlashes => "///"
  | .block => " *"

/-- The comment line of one text. -/
def Style.line (style : Style) (text : String) : String :=
  style.mark ++ " " ++ text

/-- The comment lines of some texts, one line for each. A block has two more lines around them. -/
def Style.write (style : Style) (texts : List String) : List String :=
  match style with
  | .block => "/**" :: texts.map style.line ++ [" */"]
  | _ => texts.map style.line

theorem toList_line (style : Style) (text : String) :
    (style.line text).toList = style.mark.toList ++ ' ' :: text.toList := by
  simp [Style.line]

theorem covers_line (style : Style) (text : String) : covers (style.line text).toList = true := by
  rw [toList_line]
  cases style <;> simp [Style.mark, covers, dropBlanks, isBlank]

/-- No mark takes any character of the text along: the space behind it stops the mark. -/
theorem afterMarker_line (style : Style) (text : String) :
    afterMarker (style.line text).toList = ' ' :: text.toList := by
  rw [toList_line]
  cases style <;> simp [Style.mark, afterMarker, dropBlanks, isBlank]

theorem text_line (style other : Style) (text : String) :
    Comment.text (style.line text).toList = Comment.text (other.line text).toList := by
  rw [Comment.text, Comment.text, afterMarker_line, afterMarker_line]

/-- What holds of the line of every text and of the two lines around a block holds of all lines. -/
theorem forall_mem_write {style : Style} {texts : List String} {holds : String → Prop}
    (hlines : ∀ text ∈ texts, holds (style.line text)) (hopener : holds "/**")
    (hcloser : holds " */") : ∀ line ∈ style.write texts, holds line := by
  have hmap : ∀ line ∈ texts.map style.line, holds line := by
    intro line hline
    obtain ⟨text, htext, rfl⟩ := List.mem_map.mp hline
    exact hlines text htext
  cases style with
  | slashes | tripleSlashes => exact hmap
  | block =>
      intro line hline
      simp only [Style.write, List.cons_append, List.mem_cons, List.mem_append, List.not_mem_nil,
        or_false] at hline
      rcases hline with rfl | hmem | rfl
      · exact hopener
      · exact hmap line hmem
      · exact hcloser

theorem covers_of_mem_write (style : Style) (texts : List String) :
    ∀ line ∈ style.write texts, covers line.toList = true :=
  forall_mem_write (fun text _ => covers_line style text) (by decide) (by decide)

theorem unbroken_of_mem_write (style : Style) {texts : List String}
    (htexts : ∀ text ∈ texts, '\n' ∉ text.toList) :
    ∀ line ∈ style.write texts, '\n' ∉ line.toList := by
  refine forall_mem_write (fun text htext => ?_) (by decide) (by decide)
  rw [toList_line]
  cases style <;> simp [Style.mark, htexts text htext]

/-- What a style adds around the texts has no tags. -/
theorem tags_write (style : Style) (texts : List String) :
    Block.tags ((style.write texts).map String.toList) =
      texts.filterMap fun text => Tag.ofLine? (Comment.text (style.line text).toList) := by
  have hlines : Block.tags ((texts.map style.line).map String.toList) =
      texts.filterMap fun text => Tag.ofLine? (Comment.text (style.line text).toList) := by
    unfold Block.tags
    rw [List.filterMap_map, List.filterMap_map]
    rfl
  cases style with
  | slashes | tripleSlashes => exact hlines
  | block =>
      have hopener : Block.tags ["/**".toList] = [] := by decide
      have hcloser : Block.tags [" */".toList] = [] := by decide
      rw [← hlines, Style.write, ← List.singleton_append, List.map_append, List.map_append,
        List.map_singleton, List.map_singleton, Block.tags_append, Block.tags_append, hopener,
        hcloser, List.nil_append, List.append_nil]

/-- Neither the comment nor the text on a line changes when the line is written and cut again. -/
theorem read_dropTerminator (line : Line) :
    covers (dropTerminator (line ++ ['\n'])) = covers line ∧
      Comment.text (dropTerminator (line ++ ['\n'])) = Comment.text line := by
  obtain ⟨trail, htrail, hline⟩ := exists_append_dropTerminator line
  have hblank : ∀ c ∈ trail, isBlank c = true := by
    intro c hc
    rw [htrail c hc]
    decide
  constructor
  · conv_rhs => rw [hline, covers_append_trail _ _ hblank]
  · conv_rhs => rw [hline, text_append_trail _ _ hblank]

end Comment

namespace Stylesheet

open Comment

/-- Written comment lines come back as comment lines with the tags that they were written with. -/
theorem lines_write (style : Style) {texts : List String}
    (htexts : ∀ text ∈ texts, '\n' ∉ text.toList) :
    (∀ line ∈ lines (unlines (style.write texts)), covers line = true) ∧
      Block.tags (lines (unlines (style.write texts))) =
        Block.tags ((style.write texts).map String.toList) := by
  have hcut : lines (unlines (style.write texts)) =
      ((style.write texts).map String.toList).map fun line => dropTerminator (line ++ ['\n']) := by
    have hwritten : ∀ line ∈ (style.write texts).map String.toList, '\n' ∉ line := by
      simpa using unbroken_of_mem_write style htexts
    rw [← lines_flatMap_break_of_unbroken _ hwritten, List.flatMap_map]
    simp [lines, unlines]
  rw [hcut]
  constructor
  · intro line hline
    simp only [List.mem_map] at hline
    obtain ⟨_, ⟨written, hwritten, rfl⟩, rfl⟩ := hline
    rw [(read_dropTerminator _).1]
    exact covers_of_mem_write style texts written hwritten
  · unfold Block.tags
    rw [List.filterMap_map]
    refine List.filterMap_congr fun line _ => ?_
    rw [Function.comp_apply, (read_dropTerminator line).2]

theorem lines_before_comment (style : Style) (before after : String) (texts : List String)
    (hended : before = "" ∨ before.toList.getLast? = some '\n') :
    lines (before ++ unlines (style.write texts) ++ after) =
      lines before ++ (lines (unlines (style.write texts)) ++ lines after) := by
  rw [lines, lines, lines, lines, String.toList_append, String.toList_append, List.append_assoc,
    lines_append (hended.imp_left (congrArg String.toList)), lines_unlines_append]

/-- The style of a comment makes no difference: texts that are written in two styles, between the
same lines above and the same text below, give the same items. The text below usually begins with
the header that the comment documents, but need not. -/
theorem items_of_style (style other : Style) (before after : String) (texts : List String)
    (hended : before = "" ∨ before.toList.getLast? = some '\n')
    (htexts : ∀ text ∈ texts, '\n' ∉ text.toList) :
    items (before ++ unlines (style.write texts) ++ after) =
      items (before ++ unlines (other.write texts) ++ after) := by
  have hread (style : Style) : items (before ++ unlines (style.write texts) ++ after) =
      itemsBelow [] (lines before) ++
        itemsBelow ((lines before).foldl prolong [] ++ lines (unlines (style.write texts)))
          (lines after) := by
    rw [items_eq_itemsBelow, lines_before_comment style before after texts hended,
      itemsBelow_append, itemsBelow_comments_append _ (lines_write style htexts).1]
  have htags (run : List Line) : Block.tags (run ++ lines (unlines (style.write texts))) =
      Block.tags (run ++ lines (unlines (other.write texts))) := by
    have hsame : Block.tags (lines (unlines (style.write texts))) =
        Block.tags (lines (unlines (other.write texts))) := by
      rw [(lines_write style htexts).2, (lines_write other htexts).2, tags_write, tags_write]
      exact List.filterMap_congr fun text _ => by rw [text_line style other]
    rw [Block.tags_append, Block.tags_append, hsame]
  rw [hread style, hread other, itemsBelow_congr (htags _)]

/-- Texts of slashes and stars below a comment line that was there before. -/
theorem items_of_style_clearfix :
    let before := "$x: 1;\n// Tools\n"
    let texts := ["*/", "@todo / *\r", "", "****", "// @access private **/"]
    let after := "@mixin clearfix \x7b\n"
    (before = "" ∨ before.toList.getLast? = some '\n') ∧
      (∀ text ∈ texts, '\n' ∉ text.toList) ∧
      items (before ++ unlines (Style.block.write texts) ++ after) =
        items (before ++ unlines (Style.slashes.write texts) ++ after) := by
  intro before texts after
  have hended : before = "" ∨ before.toList.getLast? = some '\n' := by decide +kernel
  have htexts : ∀ text ∈ texts, '\n' ∉ text.toList := by decide +kernel
  exact ⟨hended, htexts, items_of_style .block .slashes before after texts hended htexts⟩

end Stylesheet

end StyleDoc
