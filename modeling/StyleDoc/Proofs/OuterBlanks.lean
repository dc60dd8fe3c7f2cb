import Mathlib.Data.List.DropRight
import StyleDoc.Proofs.PlainText
import StyleDoc.Proofs.Sections
import StyleDoc.Proofs.Text.Lines

/-!
Blanks at the ends of a line mean nothing. Whether a line is a comment line, which declaration it
is a header of and which text it holds all stay the same when blanks are put in front of the line or
behind it, so each of them can be read off the stripped line. What a stylesheet says therefore
depends on its stripped lines alone, and carriage returns before line feeds are such blanks.
-/

namespace StyleDoc

namespace Text

/-- Blanks taken off both ends. -/
def strip (line : List Char) : List Char :=
  (dropBlanks line).rdropWhile isBlank

theorem rdropWhile_append_of_forall {accepts : Char → Bool} (text : List Char)
    {run : List Char} (hrun : ∀ c ∈ run, accepts c = true) :
    (text ++ run).rdropWhile accepts = text.rdropWhile accepts := by
  unfold List.rdropWhile
  rw [List.reverse_append, List.dropWhile_append_of_pos (by simpa using hrun)]

/-- A line is its stripped line with blanks on either side. -/
theorem exists_append_strip (line : List Char) :
    ∃ lead trail, (∀ c ∈ lead, isBlank c = true) ∧ (∀ c ∈ trail, isBlank c = true) ∧
      line = lead ++ (strip line ++ trail) := by
  refine ⟨line.takeWhile isBlank, (dropBlanks line).rtakeWhile isBlank,
    fun _ => List.mem_takeWhile_imp, fun _ => List.mem_rtakeWhile_imp, ?_⟩
  rw [strip, List.rdropWhile_append_rtakeWhile, dropBlanks, List.takeWhile_append_dropWhile]

theorem dropBlanks_append_lead {lead : List Char} (hlead : ∀ c ∈ lead, isBlank c = true)
    (line : List Char) : dropBlanks (lead ++ line) = dropBlanks line :=
  List.dropWhile_append_of_pos hlead

/-- Blanks behind a line that holds something else stay where they are. -/
theorem dropBlanks_append_trail {line : List Char} (hline : dropBlanks line ≠ [])
    (trail : List Char) : dropBlanks (line ++ trail) = dropBlanks line ++ trail := by
  unfold dropBlanks at hline ⊢
  rw [List.dropWhile_append, if_neg (by simpa using hline)]

theorem dropBlanks_append_trail_of_nil {line trail : List Char} (hline : dropBlanks line = [])
    (htrail : ∀ c ∈ trail, isBlank c = true) : dropBlanks (line ++ trail) = [] := by
  unfold dropBlanks at hline ⊢
  rw [List.dropWhile_append, if_pos (by simp [hline])]
  simpa using htrail

/-- What sees neither the blanks in front of a line nor those behind it sees the stripped line. -/
theorem read_strip {α : Type} (read : List Char → α)
    (hlead : ∀ lead line, (∀ c ∈ lead, isBlank c = true) → read (lead ++ line) = read line)
    (htrail : ∀ line trail, (∀ c ∈ trail, isBlank c = true) → read (line ++ trail) = read line)
    (line : List Char) : read (strip line) = read line := by
  obtain ⟨lead, trail, hleft, hright, hline⟩ := exists_append_strip line
  calc read (strip line)
      = read (strip line ++ trail) := (htrail _ _ hright).symm
    _ = read (lead ++ (strip line ++ trail)) := (hlead _ _ hleft).symm
    _ = read line := by rw [← hline]

theorem trim_append_of_forall_isSpace (text : List Char) {run : List Char}
    (hrun : ∀ c ∈ run, isSpace c = true) : trim (text ++ run) = trim text := by
  unfold trim trimLeft
  rw [List.dropWhile_append, trimRight_eq_rdropWhile, trimRight_eq_rdropWhile]
  split
  · rename_i hempty
    have hnil : run.dropWhile isSpace = [] := by simpa using hrun
    rw [hnil, List.isEmpty_iff.mp hempty]
  · rw [rdropWhile_append_of_forall _ hrun]

/-- A run of a class without blanks ends where blanks begin. -/
theorem dropWhile_append_trail {accepts : Char → Bool} (text : List Char) {trail : List Char}
    (htrail : ∀ c ∈ trail, accepts c = false) :
    (text ++ trail).dropWhile accepts = text.dropWhile accepts ++ trail := by
  rw [List.dropWhile_append]
  split
  · rename_i hempty
    have hself : trail.dropWhile accepts = trail := by
      cases trail with
      | nil => rfl
      | cons c trail => simp [htrail c List.mem_cons_self]
    rw [hself, List.isEmpty_iff.mp hempty, List.nil_append]
  · rfl

theorem takeWhile_append_trail {accepts : Char → Bool} (text : List Char) {trail : List Char}
    (htrail : ∀ c ∈ trail, accepts c = false) :
    (text ++ trail).takeWhile accepts = text.takeWhile accepts := by
  have hnil : trail.takeWhile accepts = [] := by
    cases trail with
    | nil => rfl
    | cons c trail => simp [htrail c List.mem_cons_self]
  rw [List.takeWhile_append, hnil, List.append_nil]
  split <;> rename_i hlength
  · have hpart : text.takeWhile accepts <+: text := List.takeWhile_prefix accepts
    exact (hpart.eq_of_length hlength).symm
  · rfl

theorem ne_of_isBlank {blank mark : Char} (hblank : isBlank blank = true)
    (hmark : isBlank mark = false) : blank ≠ mark := by
  rintro rfl
  rw [hblank] at hmark
  cases hmark

theorem literal?_append_trail {word : List Char} (text : List Char) {trail : List Char}
    (hword : ∀ c ∈ word, isBlank c = false) (htrail : ∀ c ∈ trail, isBlank c = true) :
    literal? word (text ++ trail) = (literal? word text).map (· ++ trail) := by
  induction word generalizing text with
  | nil => rfl
  | cons w word ih =>
      obtain ⟨hw, hword⟩ := List.forall_mem_cons.mp hword
      cases text with
      | cons c text =>
          by_cases heq : w = c
          · simpa [literal?, heq] using ih text hword
          · simp [literal?, heq]
      | nil =>
          cases trail with
          | nil => rfl
          | cons c trail =>
              have hne : w ≠ c := (ne_of_isBlank (htrail c List.mem_cons_self) hw).symm
              simp [literal?, hne]

end Text

namespace Comment

open Text

theorem covers_append_lead (lead line : List Char) (hlead : ∀ c ∈ lead, isBlank c = true) :
    covers (lead ++ line) = covers line := by
  unfold covers
  rw [dropBlanks_append_lead hlead]

/-- A lone star is a comment line with blanks behind it and without. -/
theorem covers_append_trail (line trail : List Char) (htrail : ∀ c ∈ trail, isBlank c = true) :
    covers (line ++ trail) = covers line := by
  unfold covers
  by_cases hline : dropBlanks line = []
  · rw [dropBlanks_append_trail_of_nil hline htrail, hline]
  · rw [dropBlanks_append_trail hline]
    rcases hdrop : dropBlanks line with _ | ⟨c, _ | ⟨d, rest⟩⟩
    · exact absurd hdrop hline
    · cases trail with
      | nil => rfl
      | cons blank trail =>
          have hblank := htrail blank List.mem_cons_self
          have hmark : blank ≠ '/' ∧ blank ≠ '*' :=
            ⟨ne_of_isBlank hblank (by decide), ne_of_isBlank hblank (by decide)⟩
          by_cases hstar : c = '*'
          · simp [hstar, hblank]
          · by_cases hslash : c = '/'
            · simp [hslash, hmark]
            · simp [hstar, hslash]
    · by_cases hstar : c = '*'
      · simp [hstar]
      · by_cases hslash : c = '/'
        · by_cases hd : d = '/' ∨ d = '*'
          · rcases hd with rfl | rfl <;> simp [hslash]
          · simp [hslash, not_or.mp hd]
        · simp [hstar, hslash]

theorem text_append_lead (lead line : List Char) (hlead : ∀ c ∈ lead, isBlank c = true) :
    Comment.text (lead ++ line) = Comment.text line := by
  unfold Comment.text afterMarker
  rw [dropBlanks_append_lead hlead]

/-- A marker takes no blanks along. -/
theorem afterMarker_append_trail {line : List Char} (hline : dropBlanks line ≠ [])
    {trail : List Char} (htrail : ∀ c ∈ trail, isBlank c = true) :
    afterMarker (line ++ trail) = afterMarker line ++ trail := by
  have hslash : ∀ c ∈ trail, (c == '/') = false := fun c hc =>
    beq_false_of_ne (ne_of_isBlank (htrail c hc) (by decide))
  have hstar : ∀ c ∈ trail, (c == '*') = false := fun c hc =>
    beq_false_of_ne (ne_of_isBlank (htrail c hc) (by decide))
  unfold afterMarker
  rw [dropBlanks_append_trail hline]
  rcases hdrop : dropBlanks line with _ | ⟨c, rest⟩
  · exact absurd hdrop hline
  · by_cases hcstar : c = '*'
    · subst hcstar
      simp only [List.cons_append]
      rw [dropWhile_append_trail rest hstar]
      rcases rest.dropWhile (· == '*') with _ | ⟨d, after⟩
      · rcases trail with _ | ⟨blank, trail⟩
        · rfl
        · have hne : blank ≠ '/' := by simpa using hslash blank List.mem_cons_self
          simp [hne]
      · by_cases hd : d = '/' <;> simp [hd]
    · by_cases hcslash : c = '/'
      · subst hcslash
        rcases rest with _ | ⟨d, rest⟩
        · rcases trail with _ | ⟨blank, trail⟩
          · rfl
          · have hne : blank ≠ '/' := by simpa using hslash blank List.mem_cons_self
            have hne' : blank ≠ '*' := by simpa using hstar blank List.mem_cons_self
            simp [hne, hne']
        · by_cases hdslash : d = '/'
          · subst hdslash
            exact dropWhile_append_trail rest hslash
          · by_cases hdstar : d = '*'
            · subst hdstar
              exact dropWhile_append_trail rest hstar
            · simp [hdslash, hdstar]
      · simp [hcstar, hcslash]

theorem trim_beforeCloser_append_trail (text : List Char) {trail : List Char}
    (htrail : ∀ c ∈ trail, isBlank c = true) :
    trim (beforeCloser (text ++ trail)) = trim (beforeCloser text) := by
  have hend : (text ++ trail).reverse.dropWhile isBlank = text.reverse.dropWhile isBlank := by
    rw [List.reverse_append, List.dropWhile_append_of_pos (by simpa using htrail)]
  unfold beforeCloser
  rw [hend]
  split
  · rfl
  · exact trim_append_of_forall_isSpace text fun c hc => isSpace_of_isBlank (htrail c hc)

theorem text_append_trail (line trail : List Char) (htrail : ∀ c ∈ trail, isBlank c = true) :
    Comment.text (line ++ trail) = Comment.text line := by
  unfold Comment.text
  by_cases hline : dropBlanks line = []
  · unfold afterMarker
    rw [dropBlanks_append_trail_of_nil hline htrail, hline]
  · rw [afterMarker_append_trail hline htrail, trim_beforeCloser_append_trail _ htrail]

theorem covers_strip (line : Line) : covers (strip line) = covers line :=
  read_strip covers covers_append_lead covers_append_trail line

theorem text_strip (line : Line) : Comment.text (strip line) = Comment.text line :=
  read_strip Comment.text text_append_lead text_append_trail line

end Comment

namespace Declaration

open Text

theorem ofLine?_append_lead (lead line : List Char) (hlead : ∀ c ∈ lead, isBlank c = true) :
    ofLine? (lead ++ line) = ofLine? line := by
  unfold ofLine?
  rw [dropBlanks_append_lead hlead]

theorem isBlank_eq_false_of_mem_keyword (kind : Kind) :
    ∀ c ∈ kind.keyword.toList, isBlank c = false := by
  have hplain : kind.keyword.toList.all (!isBlank ·) := by cases kind <;> decide
  simpa using hplain

theorem keyword?_append_trail (start : List Char) {trail : List Char}
    (htrail : ∀ c ∈ trail, isBlank c = true) :
    keyword? (start ++ trail) = (keyword? start).map (Prod.map id (· ++ trail)) := by
  unfold keyword?
  rw [literal?_append_trail start (isBlank_eq_false_of_mem_keyword .function) htrail,
    literal?_append_trail start (isBlank_eq_false_of_mem_keyword .mixin) htrail]
  cases literal? Kind.function.keyword.toList start with
  | some rest => rfl
  | none => cases literal? Kind.mixin.keyword.toList start <;> rfl

/-- The name behind a keyword, which only blanks set off from it. -/
def name? (afterKeyword : Line) : Option (List Char) :=
  (blanks? afterKeyword).bind fun rest => (run? isNameChar rest).map Prod.fst

theorem name?_append_trail (afterKeyword : Line) {trail : List Char}
    (htrail : ∀ c ∈ trail, isBlank c = true) :
    name? (afterKeyword ++ trail) = name? afterKeyword := by
  have hstop : ∀ c ∈ trail, isNameChar c = false := by
    intro c hc
    rw [Bool.eq_false_iff]
    intro hname
    have hplain := isBlank_eq_false_of_isSpace (isSpace_eq_false_of_isNameChar hname)
    rw [htrail c hc] at hplain
    cases hplain
  have hrun (rest : Line) :
      (run? isNameChar (rest ++ trail)).map Prod.fst = (run? isNameChar rest).map Prod.fst := by
    unfold run?
    rw [takeWhile_append_trail rest hstop]
    cases rest.takeWhile isNameChar <;> rfl
  rcases afterKeyword with _ | ⟨c, rest⟩
  · rcases trail with _ | ⟨blank, trail⟩
    · rfl
    · have hnil : dropBlanks trail = [] := by
        simpa [dropBlanks] using fun c hc => htrail c (List.mem_cons_of_mem _ hc)
      simp [name?, blanks?, htrail blank List.mem_cons_self, hnil, run?]
  · by_cases hc : isBlank c = true
    · by_cases hrest : dropBlanks rest = []
      · simp [name?, blanks?, hc, hrest, dropBlanks_append_trail_of_nil hrest htrail]
      · simpa [name?, blanks?, hc, dropBlanks_append_trail hrest] using hrun _
    · simp [name?, blanks?, hc]

/-- What stands behind the at sign, which may be missing. -/
def afterSign (start : Line) : Line :=
  match start with
  | '@' :: rest => rest
  | rest => rest

theorem ofLine?_eq_bind (line : Line) :
    ofLine? line = (keyword? (afterSign (dropBlanks line))).bind fun found =>
      (name? found.2).map fun name => { kind := found.1, name := String.ofList name } := by
  have hsteps : ofLine? line =
      (keyword? (afterSign (dropBlanks line))).bind fun found =>
        (blanks? found.2).bind fun rest => (run? isNameChar rest).bind fun named =>
          some { kind := found.1, name := String.ofList named.1 } :=
    rfl
  rw [hsteps]
  refine Option.bind_congr fun found _ => ?_
  obtain ⟨kind, afterKeyword⟩ := found
  dsimp only
  rw [name?, Option.map_bind]
  refine Option.bind_congr fun rest _ => ?_
  rw [Function.comp_apply]
  cases run? isNameChar rest <;> rfl

theorem ofLine?_append_trail (line trail : List Char) (htrail : ∀ c ∈ trail, isBlank c = true) :
    ofLine? (line ++ trail) = ofLine? line := by
  rw [ofLine?_eq_bind, ofLine?_eq_bind]
  by_cases hline : dropBlanks line = []
  · rw [dropBlanks_append_trail_of_nil hline htrail, hline]
  · have hsign : afterSign (dropBlanks line ++ trail) = afterSign (dropBlanks line) ++ trail := by
      rcases hdrop : dropBlanks line with _ | ⟨c, rest⟩
      · exact absurd hdrop hline
      · by_cases hc : c = '@' <;> simp [afterSign, hc]
    rw [dropBlanks_append_trail hline, hsign, keyword?_append_trail _ htrail]
    cases keyword? (afterSign (dropBlanks line)) with
    | none => rfl
    | some found => simp [name?_append_trail _ htrail]

theorem ofLine?_strip (line : Line) : ofLine? (strip line) = ofLine? line :=
  read_strip ofLine? ofLine?_append_lead ofLine?_append_trail line

end Declaration

open Text

namespace Block

theorem above_map_strip (lines : List Line) (index : Nat) :
    above (lines.map strip) index = (above lines index).map strip := by
  rw [above_eq_rtakeWhile, above_eq_rtakeWhile, ← List.map_take]
  have hcovers : Comment.covers ∘ strip = Comment.covers := funext Comment.covers_strip
  unfold List.rtakeWhile
  rw [← List.map_reverse, List.takeWhile_map, hcovers, List.map_reverse]

theorem item_map_strip (comments : List Line) : item (comments.map strip) = item comments := by
  have htags : tags (comments.map strip) = tags comments := by
    unfold tags
    rw [List.filterMap_map]
    exact List.filterMap_congr fun line _ => by rw [Function.comp_apply, Comment.text_strip]
  unfold item
  rw [htags]

end Block

namespace Stylesheet

/-- Stripped lines give the same items. -/
theorem map_item_sectionsOfLines_strip (lines : List Line) :
    (sectionsOfLines (lines.map strip)).map Section.item =
      (sectionsOfLines lines).map Section.item := by
  rw [sectionsOfLines_eq_range, sectionsOfLines_eq_range, List.map_filterMap, List.map_filterMap,
    List.length_map]
  refine List.filterMap_congr fun index _ => ?_
  rw [List.getElem?_map, Option.bind_map, Block.above_map_strip, Option.map_map, Option.map_map]
  have hheader : Declaration.ofLine? ∘ strip = Declaration.ofLine? :=
    funext Declaration.ofLine?_strip
  rw [hheader]
  refine Option.map_congr fun declaration _ => ?_
  simp only [Function.comp_apply, Section.item, Block.item_map_strip]

end Stylesheet

namespace Text

theorem strip_append_trail (line : Line) {trail : List Char}
    (htrail : ∀ c ∈ trail, isBlank c = true) : strip (line ++ trail) = strip line := by
  unfold strip
  by_cases hline : dropBlanks line = []
  · rw [dropBlanks_append_trail_of_nil hline htrail, hline]
  · rw [dropBlanks_append_trail hline, rdropWhile_append_of_forall _ htrail]

/-- A carriage return in front of a line feed is taken off with it or stripped with the line. -/
theorem strip_dropTerminator_withReturns {text segment : List Char}
    (hsegment : segment ∈ segments text) :
    strip (dropTerminator (withReturns segment)) = strip (dropTerminator segment) := by
  rcases unbroken_or_ended_of_mem_segments hsegment with hunbroken | ⟨body, hbody, rfl⟩
  · rw [withReturns_of_unbroken hunbroken]
  · have hreturns : withReturns (body ++ ['\n']) = body ++ ['\r', '\n'] := by
      have happend : withReturns (body ++ ['\n']) = withReturns body ++ ['\r', '\n'] := by
        simp [withReturns]
      rw [happend, withReturns_of_unbroken hbody]
    have hdrop : dropTerminator (body ++ ['\r', '\n']) = body := by simp [dropTerminator]
    rw [hreturns, hdrop]
    by_cases hlast : body.getLast? = some '\r'
    · obtain ⟨front, rfl⟩ := List.getLast?_eq_some_iff.mp hlast
      have hfront : dropTerminator (front ++ ['\r'] ++ ['\n']) = front := by
        simp [dropTerminator]
      rw [hfront, strip_append_trail front (List.forall_mem_singleton.mpr rfl)]
    · rw [dropTerminator_append_break hlast]

end Text

namespace Stylesheet

theorem map_strip_lines_withReturns (content : String) :
    (lines (String.ofList (withReturns content.toList))).map strip =
      (lines content).map strip := by
  unfold lines Text.lines
  rw [String.toList_ofList, segments_withReturns, List.map_map, List.map_map, List.map_map]
  exact List.map_congr_left fun segment => strip_dropTerminator_withReturns

/-- Lines that differ only in the blanks at their ends, line by line, give the same items, and so
does content whose line ends have a carriage return. -/
theorem items_of_stripped_lines :
    (∀ content other : String, (lines content).map strip = (lines other).map strip →
      items content = items other) ∧
    ∀ content : String, items (String.ofList (withReturns content.toList)) = items content := by
  have hstripped (content other : String)
      (hlines : (lines content).map strip = (lines other).map strip) :
      items content = items other := by
    unfold items sections
    rw [← map_item_sectionsOfLines_strip (lines content), hlines, map_item_sectionsOfLines_strip]
  exact ⟨hstripped, fun content => hstripped _ _ (map_strip_lines_withReturns content)⟩

/-- An indented comment with blanks behind it and the same comment without. -/
theorem items_of_stripped_lines_clearfix :
    (lines "\t/** Clears floats \r\n *\x0c\n */\t\n  @mixin clearfix \x7b\n").map strip =
      (lines "/** Clears floats\n*\n*/\n@mixin clearfix \x7b  ").map strip ∧
    items "\t/** Clears floats \r\n *\x0c\n */\t\n  @mixin clearfix \x7b\n" =
      items "/** Clears floats\n*\n*/\n@mixin clearfix \x7b  " := by
  have hlines :
      (lines "\t/** Clears floats \r\n *\x0c\n */\t\n  @mixin clearfix \x7b\n").map strip =
        (lines "/** Clears floats\n*\n*/\n@mixin clearfix \x7b  ").map strip := by
    decide +kernel
  exact ⟨hlines, items_of_stripped_lines.1 _ _ hlines⟩

end Stylesheet

end StyleDoc
