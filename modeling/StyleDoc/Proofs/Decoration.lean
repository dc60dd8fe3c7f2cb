import StyleDoc.Proofs.CommentMarks
import StyleDoc.Proofs.OuterBlanks
import StyleDoc.Proofs.WellFormed

/-!
What taking the decoration off a line takes and what it leaves. At the start of a line goes the
longest marker behind the indentation, at the end of what is left goes the longest closer, and then
the spaces at both ends go; everything between them stays as it was. The closer is looked for behind
the marker only, so stars that opened a comment cannot close it as well: a block comment with
nothing between its stars keeps its last slash, which then counts as text.
-/

namespace StyleDoc

namespace Text

theorem exists_takeWhile_eq_replicate (mark : Char) (text : List Char) :
    ∃ count, text.takeWhile (· == mark) = List.replicate count mark :=
  ⟨_, List.eq_replicate_iff.mpr ⟨rfl, fun _ hc => by simpa using List.mem_takeWhile_imp hc⟩⟩

theorem dropWhile_replicate_append (mark : Char) (count : Nat) (text : List Char) :
    (List.replicate count mark ++ text).dropWhile (· == mark) = text.dropWhile (· == mark) :=
  List.dropWhile_append_of_pos (by simp)

/-- A text is its trimmed text with spaces on either side. -/
theorem exists_append_trim (text : List Char) :
    ∃ lead trail, (∀ c ∈ lead, isSpace c = true) ∧ (∀ c ∈ trail, isSpace c = true) ∧
      text = lead ++ (trim text ++ trail) := by
  refine ⟨text.takeWhile isSpace, (trimLeft text).rtakeWhile isSpace,
    fun _ => List.mem_takeWhile_imp, fun _ => List.mem_rtakeWhile_imp, ?_⟩
  rw [trim, trimRight_eq_rdropWhile, List.rdropWhile_append_rtakeWhile, trimLeft,
    List.takeWhile_append_dropWhile]

end Text

open Text

theorem Block.tags_append_cons (above below : List Line) (line : Line) :
    Block.tags (above ++ line :: below) =
      Block.tags above ++ ((Tag.ofLine? (Comment.text line)).toList ++ Block.tags below) := by
  rw [Block.tags_append]
  refine congrArg _ ?_
  unfold Block.tags
  cases hread : Tag.ofLine? (Comment.text line) <;> simp [hread]

namespace Comment

/-- One or more stars and the slash behind them. -/
def IsCloser (mark : List Char) : Prop :=
  ∃ more, mark = List.replicate (more + 1) '*' ++ ['/']

/-- What opens or continues a comment at the start of a line: two or more slashes, a slash and
stars, stars alone, or a closer. -/
inductive IsMarker : List Char → Prop where
  | slashes (more : Nat) : IsMarker (List.replicate (more + 2) '/')
  | opener (more : Nat) : IsMarker ('/' :: List.replicate (more + 1) '*')
  | stars (more : Nat) : IsMarker (List.replicate (more + 1) '*')
  | closer {mark : List Char} (hmark : IsCloser mark) : IsMarker mark

section Markers

variable {indent : List Char} (hindent : ∀ c ∈ indent, isBlank c = true)
include hindent

theorem afterMarker_slashes (more : Nat) (rest : List Char) :
    afterMarker (indent ++ (List.replicate (more + 2) '/' ++ rest)) =
      rest.dropWhile (· == '/') := by
  unfold afterMarker
  rw [List.replicate_succ, List.replicate_succ, List.cons_append, List.cons_append,
    dropBlanks_indent hindent (by decide)]
  exact dropWhile_replicate_append '/' more rest

theorem afterMarker_opener (more : Nat) (rest : List Char) :
    afterMarker (indent ++ ('/' :: List.replicate (more + 1) '*' ++ rest)) =
      rest.dropWhile (· == '*') := by
  unfold afterMarker
  rw [List.replicate_succ, List.cons_append, List.cons_append,
    dropBlanks_indent hindent (by decide)]
  exact dropWhile_replicate_append '*' more rest

theorem afterMarker_stars (more : Nat) (rest : List Char) :
    afterMarker (indent ++ (List.replicate (more + 1) '*' ++ rest)) =
      Tag.dropOptional '/' (rest.dropWhile (· == '*')) := by
  unfold afterMarker
  rw [List.replicate_succ, List.cons_append, dropBlanks_indent hindent (by decide)]
  simp only [dropWhile_replicate_append]
  rcases rest.dropWhile (· == '*') with _ | ⟨c, after⟩
  · rfl
  · by_cases hc : c = '/' <;> simp [Tag.dropOptional, hc]

/-- No marker reaches further than the one that is taken. -/
theorem afterMarker_suffix_of_isMarker {marker : List Char} (hmarker : IsMarker marker)
    (rest : List Char) : afterMarker (indent ++ (marker ++ rest)) <:+ rest := by
  cases hmarker with
  | slashes more =>
      rw [afterMarker_slashes hindent]
      exact List.dropWhile_suffix _
  | opener more =>
      rw [afterMarker_opener hindent]
      exact List.dropWhile_suffix _
  | stars more =>
      rw [afterMarker_stars hindent]
      exact (Tag.dropOptional_suffix '/' _).trans (List.dropWhile_suffix _)
  | closer hmark =>
      obtain ⟨more, rfl⟩ := hmark
      rw [List.append_assoc, afterMarker_stars hindent]
      exact List.suffix_refl rest

end Markers

/-- A line is its indentation, at most one marker, and what is left of it. -/
theorem exists_marker (line : Line) :
    ∃ indent marker, (∀ c ∈ indent, isBlank c = true) ∧ (marker = [] ∨ IsMarker marker) ∧
      line = indent ++ (marker ++ afterMarker line) := by
  obtain ⟨indent, hindent, hline⟩ := exists_indent line
  have hmarked : ∃ marker, (marker = [] ∨ IsMarker marker) ∧
      dropBlanks line = marker ++ afterMarker line := by
    unfold afterMarker
    split
    · rename_i rest hdrop
      obtain ⟨more, hmore⟩ := exists_takeWhile_eq_replicate '/' rest
      refine ⟨List.replicate (more + 2) '/', Or.inr (.slashes more), ?_⟩
      rw [hdrop, List.replicate_succ, List.replicate_succ, ← hmore, List.cons_append,
        List.cons_append, List.takeWhile_append_dropWhile]
    · rename_i rest hdrop
      obtain ⟨more, hmore⟩ := exists_takeWhile_eq_replicate '*' rest
      refine ⟨'/' :: List.replicate (more + 1) '*', Or.inr (.opener more), ?_⟩
      rw [hdrop, List.replicate_succ, ← hmore, List.cons_append, List.cons_append,
        List.takeWhile_append_dropWhile]
    · rename_i rest hdrop
      obtain ⟨more, hmore⟩ := exists_takeWhile_eq_replicate '*' rest
      have hstars : dropBlanks line =
          List.replicate (more + 1) '*' ++ rest.dropWhile (· == '*') := by
        rw [hdrop, List.replicate_succ, ← hmore, List.cons_append,
          List.takeWhile_append_dropWhile]
      split
      · rename_i after hslash
        refine ⟨List.replicate (more + 1) '*' ++ ['/'], Or.inr (.closer ⟨more, rfl⟩), ?_⟩
        rw [hstars, hslash, List.append_assoc, List.singleton_append]
      · exact ⟨List.replicate (more + 1) '*', Or.inr (.stars more), hstars⟩
    · exact ⟨[], Or.inl rfl, rfl⟩
  obtain ⟨marker, hmarker, hdrop⟩ := hmarked
  exact ⟨indent, marker, hindent, hmarker, hdrop ▸ hline⟩

/-- A line is what stands before its closer, at most one closer, and the blanks behind that. -/
theorem exists_closer (line : Line) :
    ∃ closer trail, (closer = [] ∨ IsCloser closer) ∧ (∀ c ∈ trail, isBlank c = true) ∧
      line = beforeCloser line ++ (closer ++ trail) := by
  unfold beforeCloser
  split
  · rename_i front hclosed
    obtain ⟨more, hmore⟩ := exists_takeWhile_eq_replicate '*' front
    refine ⟨List.replicate (more + 1) '*' ++ ['/'], (line.reverse.takeWhile isBlank).reverse,
      Or.inr ⟨more, rfl⟩, fun c hc => List.mem_takeWhile_imp (List.mem_reverse.mp hc), ?_⟩
    have hfront : front = List.replicate more '*' ++ front.dropWhile (· == '*') := by
      rw [← hmore, List.takeWhile_append_dropWhile]
    have hreverse : line.reverse = line.reverse.takeWhile isBlank ++
        '/' :: '*' :: (List.replicate more '*' ++ front.dropWhile (· == '*')) := by
      rw [← hfront, ← hclosed, List.takeWhile_append_dropWhile]
    have hline := congrArg List.reverse hreverse
    rw [List.reverse_reverse] at hline
    simpa [List.replicate_succ'] using hline
  · exact ⟨[], [], Or.inl rfl, by simp, by simp⟩

/-- Of a line that is closed stays what stands before the stars. -/
theorem beforeCloser_closed {closer : List Char} (hcloser : IsCloser closer) (body : List Char)
    {trail : List Char} (htrail : ∀ c ∈ trail, isBlank c = true) :
    beforeCloser (body ++ (closer ++ trail)) = body.rdropWhile (· == '*') := by
  obtain ⟨more, rfl⟩ := hcloser
  have hreverse : (body ++ (List.replicate (more + 1) '*' ++ ['/'] ++ trail)).reverse =
      trail.reverse ++ '/' :: (List.replicate (more + 1) '*' ++ body.reverse) := by
    simp
  have hdrop : (body ++ (List.replicate (more + 1) '*' ++ ['/'] ++ trail)).reverse.dropWhile
      isBlank = '/' :: '*' :: (List.replicate more '*' ++ body.reverse) := by
    rw [hreverse, dropWhile_append_of_stop (by simpa using htrail) (by simp [isBlank])]
    rfl
  unfold beforeCloser
  rw [hdrop]
  exact congrArg List.reverse (dropWhile_replicate_append '*' more body.reverse)

/-- What may stand in front of the text of a line: spaces, and among them at most one marker. -/
def IsFront (front : List Char) : Prop :=
  ∃ lead marker gap, (∀ c ∈ lead ++ gap, isSpace c = true) ∧ (marker = [] ∨ IsMarker marker) ∧
    front = lead ++ (marker ++ gap)

/-- What may stand behind the text of a line: spaces, and among them at most one closer. -/
def IsBack (back : List Char) : Prop :=
  ∃ gap closer trail, (∀ c ∈ gap ++ trail, isSpace c = true) ∧ (closer = [] ∨ IsCloser closer) ∧
    back = gap ++ (closer ++ trail)

/-- A character that decoration can be made of. -/
def isDecoration (c : Char) : Bool :=
  isSpace c || c == '/' || c == '*'

theorem IsCloser.isDecoration_of_mem {closer : List Char} (hcloser : IsCloser closer) :
    ∀ c ∈ closer, isDecoration c = true := by
  obtain ⟨more, rfl⟩ := hcloser
  intro c hc
  rcases List.mem_append.mp hc with hstar | hslash
  · rw [List.eq_of_mem_replicate hstar]
    decide
  · rw [List.mem_singleton.mp hslash]
    decide

theorem IsMarker.isDecoration_of_mem {marker : List Char} (hmarker : IsMarker marker) :
    ∀ c ∈ marker, isDecoration c = true := by
  have hstars (count : Nat) : ∀ c ∈ List.replicate count '*', isDecoration c = true := by
    intro c hc
    rw [List.eq_of_mem_replicate hc]
    decide
  cases hmarker with
  | slashes more =>
      intro c hc
      rw [List.eq_of_mem_replicate hc]
      decide
  | opener more => exact List.forall_mem_cons.mpr ⟨by decide, hstars _⟩
  | stars more => exact hstars _
  | closer hmark => exact hmark.isDecoration_of_mem

theorem isDecoration_of_mem_spaces {left mark right : List Char}
    (hspaces : ∀ c ∈ left ++ right, isSpace c = true)
    (hmark : mark = [] ∨ ∀ c ∈ mark, isDecoration c = true) :
    ∀ c ∈ left ++ (mark ++ right), isDecoration c = true := by
  intro c hc
  have hcases : c ∈ left ++ right ∨ c ∈ mark := by
    simp only [List.mem_append] at hc ⊢
    tauto
  rcases hcases with hspace | hmem
  · simp [isDecoration, hspaces c hspace]
  · rcases hmark with rfl | hmark
    · cases hmem
    · exact hmark c hmem

theorem IsFront.isDecoration_of_mem {front : List Char} (hfront : IsFront front) :
    ∀ c ∈ front, isDecoration c = true := by
  obtain ⟨lead, marker, gap, hspaces, hmarker, rfl⟩ := hfront
  exact isDecoration_of_mem_spaces hspaces (hmarker.imp_right IsMarker.isDecoration_of_mem)

theorem IsBack.isDecoration_of_mem {back : List Char} (hback : IsBack back) :
    ∀ c ∈ back, isDecoration c = true := by
  obtain ⟨gap, closer, trail, hspaces, hcloser, rfl⟩ := hback
  exact isDecoration_of_mem_spaces hspaces (hcloser.imp_right IsCloser.isDecoration_of_mem)

theorem filter_between {front text back : List Char} (hfront : ∀ c ∈ front, isDecoration c = true)
    (hback : ∀ c ∈ back, isDecoration c = true) :
    (front ++ (text ++ back)).filter (!isDecoration ·) = text.filter (!isDecoration ·) := by
  have hnone {part : List Char} (hpart : ∀ c ∈ part, isDecoration c = true) :
      part.filter (!isDecoration ·) = [] := by
    simpa using hpart
  rw [List.filter_append, List.filter_append, hnone hfront, hnone hback, List.nil_append,
    List.append_nil]

/-- What stands in front of the rest of a line reaches over every marker that the line begins
with. -/
theorem isPrefix_of_isMarker {front line : List Char} (hline : line = front ++ afterMarker line)
    {indent marker rest : List Char} (hindent : ∀ c ∈ indent, isBlank c = true)
    (hmarker : IsMarker marker) (hmarked : line = indent ++ (marker ++ rest)) :
    indent ++ marker <+: front := by
  have hsuffix : afterMarker line <:+ rest := by
    rw [hmarked]
    exact afterMarker_suffix_of_isMarker hindent hmarker rest
  obtain ⟨between, rfl⟩ := hsuffix
  refine ⟨between, (List.append_left_inj (afterMarker line)).mp ?_⟩
  calc indent ++ marker ++ between ++ afterMarker line
      = indent ++ (marker ++ (between ++ afterMarker line)) := by simp only [List.append_assoc]
    _ = front ++ afterMarker line := by rw [← hmarked, ← hline]

/-- What stands behind the trimmed text of a line, with or without a closer, reaches back over every
closer that the line ends in. -/
theorem isSuffix_of_isCloser {line lead back : List Char}
    (hline : line = lead ++ (trim (beforeCloser line) ++ back))
    (hlead : lead ++ trim (beforeCloser line) <+: beforeCloser line)
    {body closer trail : List Char} (htrail : ∀ c ∈ trail, isBlank c = true)
    (hcloser : IsCloser closer)
    (hclosed : trim (beforeCloser line) ++ back = body ++ (closer ++ trail)) :
    closer ++ trail <:+ back := by
  have hbefore : beforeCloser line <+: lead ++ body := by
    rw [hline, hclosed, ← List.append_assoc lead, beforeCloser_closed hcloser _ htrail]
    exact List.rdropWhile_prefix _ _
  obtain ⟨between, rfl⟩ : trim (beforeCloser line) <+: body :=
    (List.prefix_append_right_inj lead).mp (hlead.trans hbefore)
  refine ⟨between, (List.append_right_inj (trim (beforeCloser line))).mp ?_⟩
  rw [hclosed, List.append_assoc]

/-- Only decoration is taken off a line, and all of it is. The text is one piece of the line, with
nothing but spaces and at most one marker in front of it and nothing but spaces and at most one
closer behind it; so the other characters of the line are those of the text. No marker at the start
of the line reaches beyond what is taken off there, and no closer at the end of the line begins
before what is taken off there, unless it shares its stars with the marker. -/
theorem text_between_decoration (line : Line) :
    ∃ front back, line = front ++ (Comment.text line ++ back) ∧ IsTrimmed (Comment.text line) ∧
      IsFront front ∧ IsBack back ∧ (∀ c ∈ front ++ back, isDecoration c = true) ∧
      line.filter (!isDecoration ·) = (Comment.text line).filter (!isDecoration ·) ∧
      (∀ indent marker rest, (∀ c ∈ indent, isBlank c = true) → IsMarker marker →
        line = indent ++ (marker ++ rest) → indent ++ marker <+: front) ∧
      ∀ body closer trail, (∀ c ∈ trail, isBlank c = true) → IsCloser closer →
        Comment.text line ++ back = body ++ (closer ++ trail) → closer ++ trail <:+ back := by
  obtain ⟨indent, marker, hindent, hmarker, hline⟩ := exists_marker line
  obtain ⟨closer, trail, hcloser, htrail, hrest⟩ := exists_closer (afterMarker line)
  obtain ⟨lead, gap, hlead, hgap, hbody⟩ := exists_append_trim (beforeCloser (afterMarker line))
  have hspace {blanks : List Char} (hblanks : ∀ c ∈ blanks, isBlank c = true) :
      ∀ c ∈ blanks, isSpace c = true := fun c hc => isSpace_of_isBlank (hblanks c hc)
  have hfront : IsFront (indent ++ (marker ++ lead)) :=
    ⟨indent, marker, lead, List.forall_mem_append.mpr ⟨hspace hindent, hlead⟩, hmarker, rfl⟩
  have hback : IsBack (gap ++ (closer ++ trail)) :=
    ⟨gap, closer, trail, List.forall_mem_append.mpr ⟨hgap, hspace htrail⟩, hcloser, rfl⟩
  have hafter : afterMarker line = lead ++ (Comment.text line ++ (gap ++ (closer ++ trail))) := by
    rw [hrest, hbody]
    simp [Comment.text]
  have hwhole : line =
      indent ++ (marker ++ lead) ++ (Comment.text line ++ (gap ++ (closer ++ trail))) := by
    rw [hafter] at hline
    simpa using hline
  refine ⟨_, _, hwhole, isTrimmed_trim _, hfront, hback,
    List.forall_mem_append.mpr ⟨hfront.isDecoration_of_mem, hback.isDecoration_of_mem⟩,
    ?_, ?_, ?_⟩
  · conv_lhs => rw [hwhole]
    exact filter_between hfront.isDecoration_of_mem hback.isDecoration_of_mem
  · intro otherIndent other rest hother hisMarker hmarked
    rw [← List.append_assoc] at hline
    refine (isPrefix_of_isMarker hline hother hisMarker hmarked).trans ⟨lead, ?_⟩
    rw [List.append_assoc]
  · intro body other otherTrail hother hisCloser hclosed
    have hpart : lead ++ Comment.text line <+: beforeCloser (afterMarker line) :=
      ⟨gap, by rw [List.append_assoc]; exact hbody.symm⟩
    exact isSuffix_of_isCloser hafter hpart hother hisCloser hclosed

/-- A mark in the middle of a line is text. -/
example : Comment.text " \t/** a */ b // **/ ".toList = "a */ b //".toList := by decide +kernel

/-- A block comment that opens and closes on one line, with the given body between its stars. -/
def IsOneLineBlock (body : List Char) (line : Line) : Prop :=
  ∃ indent opening closing trailing, (∀ c ∈ indent ++ trailing, isBlank c = true) ∧
    0 < opening ∧ 0 < closing ∧
    line = indent ++ ('/' :: List.replicate opening '*' ++
      (body ++ (List.replicate closing '*' ++ '/' :: trailing)))

theorem text_oneLineBlock_of_body {body : List Char} {line : Line}
    (hline : IsOneLineBlock body line) (hbody : body ≠ []) (hhead : body.head? ≠ some '*')
    (hlast : body.getLast? ≠ some '*') : Comment.text line = trim body := by
  obtain ⟨indent, opening, closing, trailing, hblanks, hopening, hclosing, rfl⟩ := hline
  obtain ⟨hindent, htrailing⟩ := List.forall_mem_append.mp hblanks
  obtain ⟨more, rfl⟩ := Nat.exists_eq_add_one.mpr hopening
  obtain ⟨less, rfl⟩ := Nat.exists_eq_add_one.mpr hclosing
  have hcloser : List.replicate (less + 1) '*' ++ '/' :: trailing =
      List.replicate (less + 1) '*' ++ ['/'] ++ trailing := by simp
  have hopened : (body ++ (List.replicate (less + 1) '*' ++ '/' :: trailing)).dropWhile
      (· == '*') = body ++ (List.replicate (less + 1) '*' ++ '/' :: trailing) := by
    cases body with
    | nil => exact absurd rfl hbody
    | cons c body => simpa using hhead
  have hclosed : body.rdropWhile (· == '*') = body := by
    rw [List.rdropWhile_eq_self_iff]
    intro hne
    rw [List.getLast?_eq_some_getLast hne] at hlast
    simpa using hlast
  rw [Comment.text, afterMarker_opener hindent, hopened, hcloser,
    beforeCloser_closed ⟨less, rfl⟩ body htrailing, hclosed]

/-- The stars of a block with nothing between them all belong to its opener. -/
theorem text_oneLineBlock_nil {line : Line} (hline : IsOneLineBlock [] line) :
    Comment.text line = ['/'] := by
  obtain ⟨indent, opening, closing, trailing, hblanks, hopening, -, rfl⟩ := hline
  obtain ⟨hindent, htrailing⟩ := List.forall_mem_append.mp hblanks
  obtain ⟨more, rfl⟩ := Nat.exists_eq_add_one.mpr hopening
  rw [Comment.text, afterMarker_opener hindent, List.nil_append, dropWhile_replicate_append]
  exact trim_beforeCloser_append_trail ['/'] htrailing

/-- A block comment on one line holds its body without the spaces around it, and so nothing if the
body is made of spaces. With no body at all the stars of both ends run together: a slash is left,
which is added to the description of the item. -/
theorem text_oneLineBlock {body : List Char} {line : Line} (hline : IsOneLineBlock body line)
    (hhead : body.head? ≠ some '*') (hlast : body.getLast? ≠ some '*') :
    (body ≠ [] → Comment.text line = trim body) ∧
      (body ≠ [] → (∀ c ∈ body, isSpace c = true) → ∀ above below,
        Block.tags (above ++ line :: below) = Block.tags above ++ Block.tags below) ∧
      (body = [] → Comment.text line = ['/']) ∧
      (body = [] → ∀ above below, Block.tags (above ++ line :: below) =
        Block.tags above ++ .description "\n/" :: Block.tags below) := by
  refine ⟨fun hbody => text_oneLineBlock_of_body hline hbody hhead hlast,
    fun hbody hspaces above below => ?_, fun hbody => ?_, fun hbody above below => ?_⟩
  · have htrim : trim body = [] := by
      have hleft : trimLeft body = [] := by simpa [trimLeft] using hspaces
      rw [trim, hleft]
      rfl
    have hnone : Tag.ofLine? [] = none := by decide
    rw [Block.tags_append_cons, text_oneLineBlock_of_body hline hbody hhead hlast, htrim, hnone]
    rfl
  · subst hbody
    exact text_oneLineBlock_nil hline
  · subst hbody
    have hslash : Tag.ofLine? ['/'] = some (.description "\n/") := by decide
    rw [Block.tags_append_cons, text_oneLineBlock_nil hline, hslash]
    rfl

/-- A block with text, a block with a space and a rule of stars, in one comment. -/
theorem text_oneLineBlock_texts :
    (IsOneLineBlock " * Clears /".toList "\t/*** * Clears /**/\r".toList ∧
      Comment.text "\t/*** * Clears /**/\r".toList = "* Clears /".toList) ∧
    (IsOneLineBlock ['\u00a0'] "/*\u00a0*/".toList ∧ ∀ above below,
      Block.tags (above ++ "/*\u00a0*/".toList :: below) =
        Block.tags above ++ Block.tags below) ∧
    (IsOneLineBlock [] "/*****/".toList ∧ ∀ above below,
      Block.tags (above ++ "/*****/".toList :: below) =
        Block.tags above ++ .description "\n/" :: Block.tags below) := by
  have htext : IsOneLineBlock " * Clears /".toList "\t/*** * Clears /**/\r".toList :=
    ⟨['\t'], 3, 2, ['\r'], by simp [isBlank], by decide, by decide, rfl⟩
  have hspace : IsOneLineBlock ['\u00a0'] "/*\u00a0*/".toList :=
    ⟨[], 1, 1, [], by simp, by decide, by decide, rfl⟩
  have hrule : IsOneLineBlock [] "/*****/".toList :=
    ⟨[], 2, 3, [], by simp, by decide, by decide, rfl⟩
  refine ⟨⟨htext, ?_⟩, ⟨hspace, ?_⟩, hrule, ?_⟩
  · obtain ⟨hread, -⟩ := text_oneLineBlock htext (by decide +kernel) (by decide +kernel)
    exact (hread (List.cons_ne_nil _ _)).trans (by decide +kernel)
  · obtain ⟨-, hnothing, -⟩ := text_oneLineBlock hspace (by decide +kernel) (by decide +kernel)
    exact hnothing (List.cons_ne_nil _ _) (by simp [isSpace])
  · obtain ⟨-, -, -, hslash⟩ := text_oneLineBlock hrule (by simp) (by simp)
    exact hslash rfl

/-- A block comment without a body is not without text, and the mixin below it is described by a
slash. -/
theorem text_oneLineBlock_empty :
    IsOneLineBlock [] "/**/".toList ∧ Comment.text "/**/".toList ≠ trim [] ∧
      Stylesheet.items "/**/\n@mixin clearfix \x7b\x7d\n" =
        [{ kind := .mixin, name := "clearfix", description := "/" }] :=
  ⟨⟨[], 1, 1, [], by simp, by decide, by decide, rfl⟩, by decide +kernel, by decide +kernel⟩

end Comment

end StyleDoc
