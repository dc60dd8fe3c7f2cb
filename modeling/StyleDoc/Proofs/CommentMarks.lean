import StyleDoc.Proofs.Sections
import StyleDoc.Proofs.Text.Lines
import StyleDoc.Proofs.Text.Scan

/-!
Comment lines by their marks. A line opens a comment with two slashes or with a slash and a star,
or it is starred, that is, it has one star of its own with a gap, a slash or nothing behind it.
Lines are looked at one by one, so a starred line belongs to a comment whether or not one has been
opened: without any opening mark the starred lines above a header are all that is ever taken for
its documentation. A closer with more than one star is not starred, and a block that ends in such a
closer is lost.
-/

namespace StyleDoc

open Text

namespace Comment

/-- Indentation and then two slashes or a slash and a star. -/
def IsOpened (line : Line) : Prop :=
  ∃ indent mark rest, (∀ c ∈ indent, isBlank c = true) ∧ (mark = '/' ∨ mark = '*') ∧
    line = indent ++ '/' :: mark :: rest

/-- Indentation and then a star, with a blank, a slash or nothing behind it. -/
def IsStarred (line : Line) : Prop :=
  ∃ indent rest, (∀ c ∈ indent, isBlank c = true) ∧
    (∀ c ∈ rest.head?, isBlank c = true ∨ c = '/') ∧ line = indent ++ '*' :: rest

theorem dropBlanks_indent {indent : List Char} (hindent : ∀ c ∈ indent, isBlank c = true)
    {c : Char} (hc : isBlank c = false) (rest : List Char) :
    dropBlanks (indent ++ c :: rest) = c :: rest :=
  dropWhile_append_of_stop hindent (by simpa using hc)

/-- Every line is its indentation and what follows. -/
theorem exists_indent (line : Line) :
    ∃ indent, (∀ c ∈ indent, isBlank c = true) ∧ line = indent ++ dropBlanks line :=
  ⟨line.takeWhile isBlank, fun _ => List.mem_takeWhile_imp, List.takeWhile_append_dropWhile.symm⟩

theorem IsOpened.covers {line : Line} (hopened : IsOpened line) : covers line = true := by
  obtain ⟨indent, mark, rest, hindent, hmark, rfl⟩ := hopened
  unfold Comment.covers
  rw [dropBlanks_indent hindent (by decide)]
  rcases hmark with rfl | rfl <;> rfl

theorem IsStarred.covers {line : Line} (hstarred : IsStarred line) : covers line = true := by
  obtain ⟨indent, rest, hindent, hrest, rfl⟩ := hstarred
  unfold Comment.covers
  rw [dropBlanks_indent hindent (by decide)]
  cases rest with
  | nil => rfl
  | cons c rest => simpa using hrest c rfl

/-- The lines that count as comment are those that open one and those that are starred. -/
theorem covers_iff (line : Line) : covers line = true ↔ IsOpened line ∨ IsStarred line := by
  constructor
  · intro hcovers
    obtain ⟨indent, hindent, hline⟩ := exists_indent line
    unfold Comment.covers at hcovers
    split at hcovers
    · rename_i rest hdrop
      exact Or.inl ⟨indent, '/', rest, hindent, Or.inl rfl, hdrop ▸ hline⟩
    · rename_i rest hdrop
      exact Or.inl ⟨indent, '*', rest, hindent, Or.inr rfl, hdrop ▸ hline⟩
    · rename_i hdrop
      exact Or.inr ⟨indent, [], hindent, by simp, hdrop ▸ hline⟩
    · rename_i c rest hdrop
      exact Or.inr ⟨indent, c :: rest, hindent, by simpa using hcovers, hdrop ▸ hline⟩
    · cases hcovers
  · rintro (hopened | hstarred)
    · exact hopened.covers
    · exact hstarred.covers

end Comment

namespace Block

open Comment

/-- A block comment in stars: a line that opens it, lines that continue it with one star each, and
a line that closes it with the given number of stars. Behind the stars of all but the last line
stands a gap with text, or nothing. -/
def IsStarBlock (stars : Nat) (comment : List Line) : Prop :=
  ∃ opener continuation closer, comment = opener :: continuation ++ [closer] ∧
    (∃ indent more rest, (∀ c ∈ indent, isBlank c = true) ∧ (∀ c ∈ rest.head?, isBlank c = true) ∧
      opener = indent ++ '/' :: '*' :: (List.replicate more '*' ++ rest)) ∧
    (∀ line ∈ continuation, ∃ indent rest, (∀ c ∈ indent, isBlank c = true) ∧
      (∀ c ∈ rest.head?, isBlank c = true) ∧ line = indent ++ '*' :: rest) ∧
    0 < stars ∧ ∃ indent trailing, (∀ c ∈ indent ++ trailing, isBlank c = true) ∧
      closer = indent ++ List.replicate stars '*' ++ '/' :: trailing

/-- A closer is a comment line only if it has a single star. -/
theorem covers_closer_iff {indent trailing : List Char} {stars : Nat}
    (hindent : ∀ c ∈ indent, isBlank c = true) (hstars : 0 < stars) :
    covers (indent ++ List.replicate stars '*' ++ '/' :: trailing) = true ↔ stars = 1 := by
  obtain ⟨more, rfl⟩ := Nat.exists_eq_add_of_lt hstars
  rw [Nat.zero_add, List.append_assoc, List.replicate_succ, List.cons_append]
  unfold covers
  rw [dropBlanks_indent hindent (by decide)]
  cases more with
  | zero => simp
  | succ more => simp [List.replicate_succ, isBlank]

theorem IsStarBlock.exists_closer {stars : Nat} {comment : List Line}
    (hcomment : IsStarBlock stars comment) :
    ∃ front closer, comment = front ++ [closer] ∧ (covers closer = true ↔ stars = 1) := by
  obtain ⟨opener, continuation, closer, rfl, _, _, hstars, indent, trailing, hblanks, rfl⟩ :=
    hcomment
  exact ⟨_, _, rfl, covers_closer_iff (fun c hc => hblanks c (List.mem_append_left _ hc)) hstars⟩

theorem IsStarBlock.covers_of_mem {comment : List Line} (hcomment : IsStarBlock 1 comment) :
    ∀ line ∈ comment, covers line = true := by
  obtain ⟨opener, continuation, closer, rfl, hopener, hcontinuation, hstars, indent, trailing,
    hblanks, hcloser⟩ := hcomment
  intro line hline
  simp only [List.cons_append, List.mem_cons, List.mem_append, List.not_mem_nil, or_false] at hline
  rcases hline with rfl | hmem | rfl
  · obtain ⟨indent, more, rest, hindent, _, rfl⟩ := hopener
    exact IsOpened.covers ⟨indent, '*', _, hindent, Or.inr rfl, rfl⟩
  · obtain ⟨indent, rest, hindent, hrest, rfl⟩ := hcontinuation line hmem
    exact IsStarred.covers ⟨indent, rest, hindent, fun c hc => Or.inl (hrest c hc), rfl⟩
  · rw [hcloser]
    exact (covers_closer_iff (fun c hc => hblanks c (List.mem_append_left _ hc)) hstars).mpr rfl

theorem locate_header (front back : List Line) (header : Line) :
    locate (front ++ header :: back) front.length = .ok (front.rtakeWhile covers) := by
  rw [locate, if_pos (by simp), above_eq_rtakeWhile, List.take_left]

/-- The last line decides about a whole block in stars: closed by a single star and a slash it is
located from its opener to its closer, closed by more stars nothing of it is. -/
theorem locate_starBlock (front back comment : List Line) (header : Line) (stars : Nat)
    (hcomment : IsStarBlock stars comment) :
    ((∃ higher, locate (front ++ comment ++ header :: back) (front.length + comment.length) =
      .ok (higher ++ comment)) ↔ stars = 1) ∧
    (stars ≠ 1 → locate (front ++ comment ++ header :: back) (front.length + comment.length) =
      .ok []) := by
  obtain ⟨before, closer, hlast, hcloser⟩ := hcomment.exists_closer
  have hlost (hmore : stars ≠ 1) : (front ++ comment).rtakeWhile covers = [] := by
    rw [hlast, ← List.append_assoc, List.rtakeWhile_concat_neg _ _ _ (mt hcloser.mp hmore)]
  rw [← List.length_append, locate_header]
  refine ⟨⟨?_, ?_⟩, fun hmore => by rw [hlost hmore]⟩
  · rintro ⟨higher, hfound⟩
    by_contra hmore
    rw [hlost hmore, hlast] at hfound
    simp at hfound
  · rintro rfl
    exact ⟨front.rtakeWhile covers,
      by rw [rtakeWhile_append_of_forall _ _ _ hcomment.covers_of_mem]⟩

/-- A block closed by a single star, below another comment and above a mixin. -/
theorem locate_starBlock_single :
    IsStarBlock 1 ["/**".toList, " * Clears floats".toList, "\t*/ ".toList] ∧
      ∃ higher, locate ["// Tools".toList, "/**".toList, " * Clears floats".toList,
        "\t*/ ".toList, "@mixin clearfix \x7b".toList, "\x7d".toList] 4 =
        .ok (higher ++ ["/**".toList, " * Clears floats".toList, "\t*/ ".toList]) := by
  have hblock : IsStarBlock 1 ["/**".toList, " * Clears floats".toList, "\t*/ ".toList] := by
    refine ⟨"/**".toList, [" * Clears floats".toList], "\t*/ ".toList, rfl, ⟨[], 1, [], ?_⟩, ?_,
      by decide, ['\t'], [' '], by simp [isBlank], rfl⟩
    · exact ⟨by simp, by simp, rfl⟩
    · intro line hline
      rw [List.mem_singleton.mp hline]
      exact ⟨[' '], " Clears floats".toList, by simp [isBlank], by simp [isBlank], rfl⟩
  have hlocated := locate_starBlock ["// Tools".toList] ["\x7d".toList] _
    "@mixin clearfix \x7b".toList 1 hblock
  exact ⟨hblock, hlocated.1.mpr rfl⟩

/-- A second star in front of the closing slash hides the whole block, although the text of that
line would be found without its decoration. -/
theorem locate_starBlock_double :
    IsStarBlock 2 ["/**".toList, " * Clears floats".toList, " **/".toList] ∧
      locate ["/**".toList, " * Clears floats".toList, " **/".toList,
        "@mixin clearfix \x7b".toList] 3 = .ok [] ∧
      Comment.text " **/".toList = [] := by
  refine ⟨⟨"/**".toList, [" * Clears floats".toList], " **/".toList, rfl, ⟨[], 1, [], ?_⟩, ?_,
    by decide, [' '], [], by simp [isBlank], rfl⟩, by decide, by decide⟩
  · exact ⟨by simp, by simp, rfl⟩
  · intro line hline
    rw [List.mem_singleton.mp hline]
    exact ⟨[' '], " Clears floats".toList, by simp [isBlank], by simp [isBlank], rfl⟩

/-- The lines from number `start` on, up to but not including number `index`, are all starred. -/
def IsStarredRun (lines : List Line) (index start : Nat) : Prop :=
  start ≤ index ∧
    ∀ n, start ≤ n → n < index → ∃ line, lines[n]? = some line ∧ IsStarred line

theorem isRun_iff_isStarredRun {lines : List Line}
    (hlines : ∀ line ∈ lines, covers line = true ↔ IsStarred line) (index start : Nat) :
    IsRun lines index start ↔ IsStarredRun lines index start := by
  unfold IsRun IsStarredRun
  refine and_congr_right fun _ => forall₃_congr fun n _ _ => ?_
  refine exists_congr fun line => and_congr_right fun hline => ?_
  exact hlines line (List.mem_of_getElem? hline)

end Block

namespace Stylesheet

open Comment

theorem covers_iff_isStarred_of_unopened {content : String}
    (hslashes : ¬ "//".toList <:+: content.toList) (hstar : ¬ "/*".toList <:+: content.toList)
    {line : Line} (hline : line ∈ lines content) : covers line = true ↔ IsStarred line := by
  have hinside : line <:+: content.toList := infix_of_mem_lines hline
  rw [covers_iff]
  refine or_iff_right ?_
  rintro ⟨indent, mark, rest, _, rfl | rfl, rfl⟩
  · exact hslashes (List.IsInfix.trans ⟨indent, rest, by simp⟩ hinside)
  · exact hstar (List.IsInfix.trans ⟨indent, rest, by simp⟩ hinside)

/-- Where nothing opens a comment, documentation comes from starred lines alone: an item documents
the longest run of starred lines that ends directly above its header, and it has the default value
in every field but kind and name unless the line above the header is starred. -/
theorem items_of_unopened (content : String) (hslashes : ¬ "//".toList <:+: content.toList)
    (hstar : ¬ "/*".toList <:+: content.toList) :
    ∃ start : Nat → Nat,
      (∀ index, IsLeast {n | Block.IsStarredRun (lines content) index n} (start index)) ∧
      items content = ((List.range (lines content).length).filterMap fun index =>
        itemAt (lines content) index (start index)) ∧
      ∀ index ≤ (lines content).length,
        (index = 0 ∨ ∃ line, (lines content)[index - 1]? = some line ∧ ¬ IsStarred line) →
        itemAt (lines content) index (start index) =
          ((lines content)[index]?.bind Declaration.ofLine?).map fun declaration =>
            { kind := declaration.kind, name := declaration.name } := by
  have hlines : ∀ line ∈ lines content, covers line = true ↔ IsStarred line := fun line =>
    covers_iff_isStarred_of_unopened hslashes hstar
  choose start hstart using Block.exists_isLeast_isRun (lines content)
  refine ⟨start, ?_, items_eq_filterMap_itemAt content hstart, ?_⟩
  · intro index
    simpa only [Block.isRun_iff_isStarredRun hlines] using hstart index
  · intro index hindex habove
    have hempty : start index = index := by
      refine (Block.isLeast_eq_index_iff hindex (hstart index)).mpr (habove.imp_right ?_)
      rintro ⟨line, hline, hplain⟩
      refine ⟨line, hline, ?_⟩
      rwa [Bool.eq_false_iff, ne_eq, hlines line (List.mem_of_getElem? hline)]
    rw [hempty, itemAt, List.drop_take_self]
    rfl

/-- Rules that begin with a star but have no starred line, above a mixin. -/
def selectorsAboveReset : String :=
  "*,\n*::before \x7b margin: 0; \x7d\n@mixin reset \x7b\x7d\n"

/-- Rules without a starred line above a mixin leave it undocumented. -/
theorem items_of_unopened_reset :
    ¬ "//".toList <:+: selectorsAboveReset.toList ∧
      ¬ "/*".toList <:+: selectorsAboveReset.toList ∧
      ∃ start : Nat → Nat,
        IsLeast {n | Block.IsStarredRun (lines selectorsAboveReset) 2 n} (start 2) ∧
        itemAt (lines selectorsAboveReset) 2 (start 2) =
          some { kind := .mixin, name := "reset" } := by
  have hslashes : ¬ "//".toList <:+: selectorsAboveReset.toList := by decide +kernel
  have hstar : ¬ "/*".toList <:+: selectorsAboveReset.toList := by decide +kernel
  obtain ⟨start, hstart, _, hdefault⟩ := items_of_unopened _ hslashes hstar
  have hplain : ¬ IsStarred "*::before \x7b margin: 0; \x7d".toList := fun hstarred =>
    absurd hstarred.covers (by decide)
  exact ⟨hslashes, hstar, start, hstart 2,
    (hdefault 2 (by decide +kernel) (Or.inr ⟨_, by rfl, hplain⟩)).trans (by rfl)⟩

/-- A rule for every element above a mixin. -/
def universalAboveReset : String :=
  "* \x7b margin: 0; \x7d\n@mixin reset \x7b\x7d\n"

/-- A rule for every element opens no comment, and yet it documents the mixin below it. -/
theorem items_of_universal_rule :
    ¬ "//".toList <:+: universalAboveReset.toList ∧
      ¬ "/*".toList <:+: universalAboveReset.toList ∧
      ¬ ∀ item ∈ items universalAboveReset,
        item = { kind := item.kind, name := item.name } := by
  refine ⟨by decide +kernel, by decide +kernel, fun hdefault => ?_⟩
  have hitems : items universalAboveReset =
      [{ kind := .mixin, name := "reset", description := "\x7b margin: 0; \x7d" }] := by
    decide +kernel
  rw [hitems] at hdefault
  exact absurd (hdefault _ List.mem_cons_self) (by decide)

end Stylesheet

end StyleDoc
