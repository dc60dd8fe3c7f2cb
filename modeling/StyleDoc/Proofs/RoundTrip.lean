import StyleDoc.Proofs.BlockFields
import StyleDoc.Proofs.Sections
import StyleDoc.Proofs.Spelling

/-!
Reading undoes writing. The comment lines of a written item carry its tags, the header carries its
kind and name, and the tags of the fields add up to the fields again. The result holds for every
order of the tags that keeps the order within each field.
-/

namespace StyleDoc

open Text

namespace Tag

variable {tag : Tag} {line : Line}

theorem IsWrittenOn.covers (hline : tag.IsWrittenOn line) : Comment.covers line = true := by
  obtain ⟨text, _, gap, rfl⟩ := hline
  rw [List.append_assoc]
  exact Comment.covers_slashes _

theorem IsWrittenOn.ofLine?_text (hline : tag.IsWrittenOn line) (htag : tag.IsWritable) :
    ofLine? (Comment.text line) = some tag := by
  obtain ⟨text, htext, gap, rfl⟩ := hline
  rw [Comment.text_slashes (isPlain_of_mem_spellings htag htext)]
  exact ofLine?_of_mem_spellings htag htext

/-- A written line can be ended by a line feed without any of it being taken for a line end. -/
theorem IsWrittenOn.can_end (hline : tag.IsWrittenOn line) (htag : tag.IsWritable) :
    '\n' ∉ line ∧ line.getLast? ≠ some '\r' := by
  obtain ⟨text, htext, gap, rfl⟩ := hline
  have hplain := isPlain_of_mem_spellings htag htext
  refine ⟨by simp [hplain.unbroken], ?_⟩
  cases gap with
  | zero =>
      cases text with
      | nil => simp
      | cons c rest =>
          rw [List.replicate_zero, List.append_nil, List.getLast?_append_of_ne_nil _ (by simp)]
          intro hreturn
          exact absurd (hplain.last '\r' hreturn) (by decide)
  | succ gap =>
      rw [List.replicate_succ', ← List.append_assoc, List.getLast?_concat]
      simp

end Tag

namespace Item

theorem ofLine?_header {item : Item} (hname : IsName item.name.toList) {rest : List Char}
    (hrest : ∀ c ∈ rest.head?, isNameChar c = false) :
    Declaration.ofLine? (item.header rest) = some { kind := item.kind, name := item.name } := by
  have hgap := blanks?_space (Tag.isBlank_head_of_isName hname (Or.inl rfl) rest)
  have hrun := run?_append hname.1 hname.2 hrest
  cases hkind : item.kind <;>
    simp [Declaration.ofLine?, header, hkind, dropBlanks, isBlank, Declaration.keyword?,
      Kind.keyword, literal?, hgap, hrun]

theorem header_can_end {item : Item} (hname : IsName item.name.toList) {rest : List Char}
    (hbreak : '\n' ∉ rest) (hreturn : '\r' ∉ rest) :
    '\n' ∉ item.header rest ∧ (item.header rest).getLast? ≠ some '\r' := by
  have hnot (c : Char) (hc : isNameChar c = false) (hmem : c ∉ rest) (hspace : c ≠ ' ')
      (hat : c ≠ '@') : c ∉ item.header rest := by
    have hoff (word : List Char) (hword : ∀ d ∈ word, isNameChar d = true) : c ∉ word := by
      intro hinside
      rw [hword c hinside] at hc
      cases hc
    have hkeyword : c ∉ item.kind.keyword.toList :=
      hoff _ (by cases item.kind <;> exact List.all_eq_true.mp (by decide))
    simp [header, hat, hspace, hmem, hkeyword, hoff _ hname.2]
  refine ⟨hnot '\n' (by decide) hbreak (by decide) (by decide), ?_⟩
  intro hlast
  exact hnot '\r' (by decide) hreturn (by decide) (by decide) (List.mem_of_getLast? hlast)

theorem mem_tags_of_hasTags {item : Item} {tags : List Tag} (htags : item.HasTags tags)
    {tag : Tag} (hmem : tag ∈ tags) : tag ∈ item.tags := by
  have hself : tag ∈ tags.filter (·.field = tag.field) := by simp [hmem]
  rcases htags tag.field with hsame | ⟨_, _, hnil⟩
  · rw [hsame] at hself
    exact (List.mem_filter.mp hself).1
  · rw [hnil] at hself
    cases hself

theorem intercalate_descriptionTexts (item : Item) :
    String.ofList (['\n'].intercalate item.descriptionTexts) = item.description := by
  unfold descriptionTexts
  split
  · rename_i hempty
    rw [hempty]
    rfl
  · rw [List.intercalate_splitOn, String.ofList_toList]

/-- The tags of an item add up to its fields. -/
theorem ofTags_tags (item : Item) :
    Item.ofTags item.tags = { item with kind := .function, name := "" } := by
  have hdeprecated : item.deprecations.getLast?.getD .current = item.deprecated := by
    unfold deprecations
    split <;> simp_all
  have hreturns : item.returnValues.getLast?.getD {} = item.returns := by
    unfold returnValues
    split <;> simp_all
  have hauthor : item.author.toList.getLast? = item.author := by
    cases item.author <;> rfl
  simp [Item.ofTags, tags, List.filterMap_append, List.filterMap_map, List.filterMap_cons,
    Function.comp_def, hdeprecated, hreturns, hauthor, intercalate_descriptionTexts]

theorem filter_access_tags (item : Item) :
    item.tags.filter (·.field = "access") = [.access item.access] := by
  simp [tags, List.filter_append, List.filter_map, Function.comp_def, Tag.field]

theorem ofTags_of_hasTags {item : Item} {tags : List Tag} (htags : item.HasTags tags) :
    Item.ofTags tags = { item with kind := .function, name := "" } := by
  rw [← ofTags_tags]
  by_cases hmissing : item.access = "public" ∧ tags.filter (·.field = "access") = []
  · have hsame : Item.ofTags tags = Item.ofTags (.access item.access :: tags) := by
      have hnone : tags.filterMap Tag.asAccess? = [] := by
        rw [filterMap_eq_filterMap_field _ "access", hmissing.2, List.filterMap_nil]
        intro tag
        cases tag <;> simp [Tag.field]
      simp [Item.ofTags, List.filterMap_cons, hnone, hmissing.1]
    rw [hsame]
    refine Item.ofTags_congr fun field => ?_
    have haccess : (Tag.access item.access).field = "access" := rfl
    rcases htags field with hsame | ⟨rfl, _, hnil⟩
    · by_cases hfield : field = "access"
      · subst hfield
        rw [List.filter_cons_of_pos (by simp [haccess]), hmissing.2, filter_access_tags]
      · rw [List.filter_cons_of_neg (by simp [haccess, Ne.symm hfield]), hsame]
    · rw [List.filter_cons_of_pos (by simp [haccess]), hnil, filter_access_tags]
  · refine Item.ofTags_congr fun field => ?_
    rcases htags field with hsame | ⟨rfl, hpublic, hnil⟩
    · exact hsame
    · exact absurd ⟨hpublic, hnil⟩ hmissing

end Item

namespace Stylesheet

/-- A header below comment lines is documented by all of them. -/
theorem sectionsOfLines_comments_header {comments : List Line} {header : Line}
    {declaration : Declaration} (hcomments : ∀ line ∈ comments, Comment.covers line = true)
    (hheader : Declaration.ofLine? header = some declaration) :
    sectionsOfLines (comments ++ [header]) =
      [{ line := comments.length, declaration, comments }] := by
  have habove : Block.above (comments ++ [header]) comments.length = comments := by
    rw [Block.above_eq_rtakeWhile, List.take_left, List.rtakeWhile_eq_self_iff]
    exact hcomments
  unfold sectionsOfLines
  rw [List.zipIdx_append, List.filterMap_append, List.filterMap_eq_nil_iff.mpr]
  · simp [hheader, habove]
  · rintro ⟨line, index⟩ hmem
    have hline := hcomments line (List.fst_mem_of_mem_zipIdx hmem)
    simp [Comment.ofLine?_eq_none_of_covers hline]

end Stylesheet

namespace Item

theorem tags_of_forall₂_isWrittenOn {tags : List Tag} {comments : List Line}
    (hwritten : List.Forall₂ Tag.IsWrittenOn tags comments)
    (hwritable : ∀ tag ∈ tags, tag.IsWritable) : Block.tags comments = tags := by
  unfold Block.tags
  induction hwritten with
  | nil => rfl
  | cons hline _ ih =>
      have hhead := hline.ofLine?_text (hwritable _ List.mem_cons_self)
      have htail := ih fun tag hmem => hwritable tag (List.mem_cons_of_mem _ hmem)
      rw [List.filterMap_cons, hhead, htail]

theorem exists_tag_of_mem_comments {tags : List Tag} {comments : List Line}
    (hwritten : List.Forall₂ Tag.IsWrittenOn tags comments) {line : Line}
    (hmem : line ∈ comments) : ∃ tag ∈ tags, tag.IsWrittenOn line := by
  induction hwritten with
  | nil => cases hmem
  | cons hline _ ih =>
      rcases List.mem_cons.mp hmem with rfl | hlater
      · exact ⟨_, List.mem_cons_self, hline⟩
      · obtain ⟨tag, htag, htagLine⟩ := ih hlater
        exact ⟨tag, List.mem_cons_of_mem _ htag, htagLine⟩

theorem exists_mem_spellings {tag : Tag} (htag : tag.IsWritable) :
    ∃ text, text ∈ tag.spellings := by
  have hclauses (description : List Char) : ∃ clause, clause ∈ Tag.clauses description := by
    unfold Tag.clauses
    split <;> exact ⟨_, List.mem_cons_self⟩
  cases tag with
  | returns value =>
      obtain ⟨clause, hclause⟩ := hclauses (value.description.getD "").toList
      exact ⟨_, List.mem_flatMap.mpr
        ⟨_, List.mem_cons_self, List.mem_map.mpr ⟨clause, hclause, rfl⟩⟩⟩
  | parameter value =>
      obtain ⟨clause, hclause⟩ := hclauses value.description.toList
      exact ⟨_, List.mem_map.mpr ⟨clause, hclause, rfl⟩⟩
  | deprecated value =>
      cases value with
      | current => exact htag.elim
      | _ => exact ⟨_, List.mem_cons_self⟩
  | _ => exact ⟨_, List.mem_cons_self⟩

/-- There is a way to write every writable item. -/
theorem exists_isWrittenOn {item : Item} (hitem : item.IsWritable) :
    ∃ lines, item.IsWrittenOn lines := by
  have hlines (tags : List Tag) (htags : ∀ tag ∈ tags, tag.IsWritable) :
      ∃ comments, List.Forall₂ Tag.IsWrittenOn tags comments := by
    induction tags with
    | nil => exact ⟨[], .nil⟩
    | cons tag tags ih =>
        obtain ⟨text, htext⟩ := exists_mem_spellings (htags tag List.mem_cons_self)
        obtain ⟨comments, hcomments⟩ := ih fun other hmem =>
          htags other (List.mem_cons_of_mem _ hmem)
        exact ⟨_, .cons ⟨text, htext, 0, rfl⟩ hcomments⟩
  obtain ⟨comments, hcomments⟩ := hlines item.tags hitem.2
  exact ⟨_, item.tags, comments, [], fun _ => Or.inl rfl, hcomments, by simp, by simp, by simp, rfl⟩

/-- Whatever way a writable item is written in, reading gives it back and nothing else. -/
theorem items_of_isWrittenOn (item : Item) (hitem : item.IsWritable) :
    (∃ lines, item.IsWrittenOn lines) ∧
      ∀ lines, item.IsWrittenOn lines →
        Stylesheet.items (Text.unlines (lines.map String.ofList)) = [item] := by
  refine ⟨exists_isWrittenOn hitem, ?_⟩
  rintro lines ⟨tags, comments, rest, htags, hwritten, hrest, hbreak, hreturn, rfl⟩
  have hwritable : ∀ tag ∈ tags, tag.IsWritable := fun tag hmem =>
    hitem.2 tag (mem_tags_of_hasTags htags hmem)
  have hcut : Stylesheet.lines (Text.unlines ((comments ++ [item.header rest]).map String.ofList)) =
      comments ++ [item.header rest] := by
    refine lines_unlines _ fun line hmem => ?_
    rcases List.mem_append.mp hmem with hcomment | hheader
    · obtain ⟨tag, htag, hline⟩ := exists_tag_of_mem_comments hwritten hcomment
      exact hline.can_end (hwritable tag htag)
    · rw [List.mem_singleton.mp hheader]
      exact header_can_end hitem.1 hbreak hreturn
  have hcovers : ∀ line ∈ comments, Comment.covers line = true := by
    intro line hmem
    obtain ⟨tag, _, hline⟩ := exists_tag_of_mem_comments hwritten hmem
    exact hline.covers
  have hsections := Stylesheet.sectionsOfLines_comments_header hcovers
    (ofLine?_header hitem.1 hrest)
  have hblock : Block.item comments = { item with kind := .function, name := "" } := by
    rw [Block.item_eq_ofTags, tags_of_forall₂_isWrittenOn hwritten hwritable,
      ofTags_of_hasTags htags]
  rw [Stylesheet.items, Stylesheet.sections, hcut, hsections, List.map_singleton, Section.item,
    hblock]

/-- An item whose texts look like the marks around them. -/
def clamp : Item where
  kind := .mixin
  name := "clamp"
  description := "Limits a value\n* to a range"
  deprecated := .because "*Use limit"
  returns := { types := some ["Number", "Null"], description := some "- or nothing" }
  parameters :=
    [{ type := "Number", name := "$low", default := some "rem(1px)", description := "" }]
  links := [{ url := "https://x.dev", caption := some "(/)" }]

def clampComments : List Line :=
  ["/// Limits a value", "/// * to a range", "/// @access public", "/// @deprecated *Use limit",
    "/// @returns \x7bNumber|Null\x7d - - or nothing",
    "/// @param \x7bNumber\x7d $low (rem(1px)) -  ",
    "/// @link https://x.dev (/)"].map String.toList

theorem tags_clamp :
    clamp.tags = [.description "\nLimits a value", .description "\n* to a range",
      .access "public", .deprecated (.because "*Use limit"), .returns clamp.returns,
      .parameter
        { type := "Number", name := "$low", default := some "rem(1px)", description := "" },
      .link { url := "https://x.dev", caption := some "(/)" }] := by decide

theorem isWritable_clamp : clamp.IsWritable := by
  have hflat : IsFlat "rem(1px)".toList :=
    .char 'r' _ (by decide) (.char 'e' _ (by decide) (.char 'm' _ (by decide)
      (.group ['1', 'p', 'x'] [] (by simp [IsParenthesis]) .nil)))
  have hlow : IsName "low".toList := by decide
  refine ⟨(by decide : IsName "clamp".toList), ?_⟩
  rw [tags_clamp]
  simp only [List.forall_mem_cons]
  have hdescription (line : List Char) (hline : IsPlain line ∧ line ≠ [] ∧
      Tag.isRule line = false ∧ Tag.isOmitted line = false ∧
      ∀ form ∈ Tag.forms, form line = none) :
      (Tag.description (String.ofList ('\n' :: line))).IsWritable := ⟨line, rfl, hline⟩
  refine ⟨hdescription "Limits a value".toList (by decide),
    hdescription "* to a range".toList (by decide), (by decide : IsWord "public".toList),
    (by decide : IsPlain "*Use limit".toList ∧ "*Use limit".toList ≠ []),
    ⟨_, _, rfl, by decide, by decide, by decide⟩,
    ⟨by decide, by decide, ⟨"low".toList, hlow, Or.inr (by decide)⟩, ?_, by decide⟩,
    ⟨by decide, by decide⟩, by simp⟩
  intro default hdefault
  obtain rfl := Option.mem_some.mp hdefault
  exact ⟨by decide, by decide, hflat⟩

theorem isWrittenOn_clamp :
    clamp.IsWrittenOn (clampComments ++ ["@mixin clamp($low) \x7b".toList]) := by
  refine ⟨clamp.tags, clampComments, "($low) \x7b".toList, fun _ => Or.inl rfl, ?_, ?_,
    by decide, by decide, by decide⟩
  case refine_2 =>
    intro c hc
    obtain rfl := Option.mem_some.mp hc
    decide
  rw [tags_clamp]
  exact .cons ⟨_, List.mem_cons_self, 0, by decide⟩ (.cons ⟨_, List.mem_cons_self, 0, by decide⟩
    (.cons ⟨_, List.mem_cons_self, 0, by decide⟩ (.cons ⟨_, List.mem_cons_self, 0, by decide⟩
      (.cons ⟨"@returns \x7bNumber|Null\x7d - - or nothing".toList, by decide, 0, by decide⟩
        (.cons ⟨_, List.mem_cons_self, 2, by decide⟩
          (.cons ⟨_, List.mem_cons_self, 0, by decide⟩ .nil))))))

theorem items_of_isWrittenOn_clamp :
    clamp.IsWritable ∧
      Stylesheet.items (Text.unlines ["/// Limits a value", "/// * to a range",
        "/// @access public", "/// @deprecated *Use limit",
        "/// @returns \x7bNumber|Null\x7d - - or nothing",
        "/// @param \x7bNumber\x7d $low (rem(1px)) -  ", "/// @link https://x.dev (/)",
        "@mixin clamp($low) \x7b"]) = [clamp] := by
  have h := (items_of_isWrittenOn clamp isWritable_clamp).2 _ isWrittenOn_clamp
  refine ⟨isWritable_clamp, ?_⟩
  simpa [clampComments] using h

end Item

end StyleDoc
