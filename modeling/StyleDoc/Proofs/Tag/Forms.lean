import StyleDoc.Proofs.Tag.Parameters

/-!
Which lines hold which tag. Every tag but description has a form, in which its texts stand between
fixed words and gaps; a line without spaces at its ends contributes a tag if and only if it has the
form of that tag. A line feed may stand in a gap, in the types of a return and behind a single
word, but not in a text that has to reach the end of the line.
-/

namespace StyleDoc

namespace Text

instance (text : List Char) : Decidable (IsTrimmed text) :=
  decidable_of_iff (text.head?.all (!isSpace ·) ∧ text.getLast?.all (!isSpace ·))
    ⟨fun h => ⟨by simpa [Option.all_eq_true] using h.1, by simpa [Option.all_eq_true] using h.2⟩,
      fun h => by simpa [Option.all_eq_true] using And.intro h.head h.last⟩

theorem IsTrimmed.isBlank_last {text line : List Char} (hline : IsTrimmed line)
    (htext : text <:+ line) : ∀ c ∈ text.getLast?, isBlank c = false := by
  obtain ⟨front, rfl⟩ := htext
  intro c hc
  refine isBlank_eq_false_of_isSpace (hline.last c ?_)
  rw [Option.mem_def] at hc ⊢
  rw [List.getLast?_append, hc, Option.some_or]

end Text

namespace Tag

open Text

/-- The lines that hold a tag. What is called `gap` is one or more blanks; a phrase goes to the end
of the line, and a word to the next blank. -/
inductive HasForm : Line → Tag → Prop where
  | returns {ending gap types rest description : List Char} (hending : IsPlural ending)
      (hgap : IsGap gap) (htypes : '}' ∉ types) (hrest : IsDescribed rest description) :
      HasForm ("@return".toList ++ (ending ++ (gap ++ '{' :: (types ++ '}' :: rest))))
        (.returns
          { types := some ((types.splitOn '|').map fun type => String.ofList (trim type))
            description := some (String.ofList description) })
  | parameter {line : Line} {text : ParameterText} (hline : IsParameterLine line text) :
      HasForm line (.parameter (Parameter.ofText text))
  | deprecated : HasForm "@deprecated".toList (.deprecated .deprecated)
  | because {gap reason : List Char} (hgap : IsGap gap) (hreason : IsPhrase reason) :
      HasForm ("@deprecated".toList ++ (gap ++ reason))
        (.deprecated (.because (String.ofList reason)))
  | author {gap name : List Char} (hgap : IsGap gap) (hname : IsPhrase name) :
      HasForm ("@author".toList ++ (gap ++ name)) (.author (String.ofList name))
  | access {gap level rest : List Char} (hgap : IsGap gap) (hlevel : IsSolid level)
      (hrest : ∀ c ∈ rest.head?, isBlank c = true) :
      HasForm ("@access".toList ++ (gap ++ (level ++ rest))) (.access (String.ofList level))
  | throws {ending gap text : List Char} (hending : IsPlural ending) (hgap : IsGap gap)
      (htext : IsPhrase text) :
      HasForm ("@throw".toList ++ (ending ++ (gap ++ text))) (.throws (String.ofList text))
  | todo {gap text : List Char} (hgap : IsGap gap) (htext : IsPhrase text) :
      HasForm ("@todo".toList ++ (gap ++ text)) (.todo (String.ofList text))
  | alias {gap name rest : List Char} (hgap : IsGap gap) (hname : IsSolid name)
      (hrest : ∀ c ∈ rest.head?, isBlank c = true) :
      HasForm ("@alias".toList ++ (gap ++ (name ++ rest))) (.alias (String.ofList name))
  | link {gap url : List Char} (hgap : IsGap gap) (hurl : IsSolid url) :
      HasForm ("@link".toList ++ (gap ++ url)) (.link { url := String.ofList url })
  | captioned {gap url captionGap caption : List Char} (hgap : IsGap gap) (hurl : IsSolid url)
      (hcaptionGap : IsGap captionGap) (hcaption : IsPhrase caption) :
      HasForm ("@link".toList ++ (gap ++ (url ++ (captionGap ++ caption))))
        (.link { url := String.ofList url, caption := some (String.ofList caption) })

variable {line : Line}

theorem named?_eq_some_iff {name : String} {rest : Line} :
    named? name line = some rest ↔ line = name.toList ++ rest :=
  literal?_eq_some_iff

theorem return?_eq_some_iff {types description : List Char} :
    return? line = some (types, description) ↔
      ∃ ending gap rest, IsPlural ending ∧ IsGap gap ∧ '}' ∉ types ∧ IsDescribed rest description ∧
        line = "@return".toList ++ (ending ++ (gap ++ '{' :: (types ++ '}' :: rest))) := by
  simp only [return?, Option.bind_eq_bind, Option.bind_eq_some_iff, Option.pure_def,
    Option.some.injEq, Prod.exists, Prod.mk.injEq, named?_eq_some_iff, blanks?_eq_some_iff,
    braced?_eq_some_iff, description?_eq_some_iff]
  constructor
  · rintro ⟨_, rfl, _, ⟨gap, hgap, hdrop, -⟩, _, rest, ⟨htypes, rfl⟩, _, hrest, rfl, rfl⟩
    obtain ⟨ending, hending, rfl⟩ := (dropOptional_eq_append_iff hgap).mp hdrop
    exact ⟨ending, gap, rest, hending, hgap, htypes, hrest, rfl⟩
  · rintro ⟨ending, gap, rest, hending, hgap, htypes, hrest, rfl⟩
    have hdrop := (dropOptional_eq_append_iff hgap).mpr
      ⟨ending, hending, (rfl : _ = ending ++ (gap ++ '{' :: (types ++ '}' :: rest)))⟩
    exact ⟨_, rfl, _, ⟨gap, hgap, hdrop, isUnindented_cons (by decide) _⟩, _, rest, ⟨htypes, rfl⟩,
      _, hrest, rfl, rfl⟩

/-- A tag with a phrase, which may be read behind an `s` that belongs to the name. -/
theorem words?_dropOptional_eq_some_iff {name : String} (hline : IsTrimmed line)
    {words : List Char} :
    ((named? name line).bind fun rest => words? (dropOptional 's' rest)) = some words ↔
      ∃ ending gap, IsPlural ending ∧ IsGap gap ∧ IsPhrase words ∧
        line = name.toList ++ (ending ++ (gap ++ words)) := by
  rw [Option.bind_eq_some_iff]
  constructor
  · rintro ⟨rest, hnamed, hwords⟩
    have hlast := hline.isBlank_last ((dropOptional_suffix 's' rest).trans (named?_suffix hnamed))
    obtain ⟨gap, hgap, hdrop, hphrase⟩ := (words?_eq_some_iff hlast).mp hwords
    obtain ⟨ending, hending, rfl⟩ := (dropOptional_eq_append_iff hgap).mp hdrop
    exact ⟨ending, gap, hending, hgap, hphrase, named?_eq_some_iff.mp hnamed⟩
  · rintro ⟨ending, gap, hending, hgap, hphrase, rfl⟩
    have hdrop := (dropOptional_eq_append_iff hgap).mpr
      ⟨ending, hending, (rfl : _ = ending ++ (gap ++ words))⟩
    refine ⟨_, named?_eq_some_iff.mpr rfl, ?_⟩
    have hsuffix : gap ++ words <:+ name.toList ++ (ending ++ (gap ++ words)) :=
      (List.suffix_append ending _).trans (List.suffix_append _ _)
    rw [hdrop]
    exact (words?_eq_some_iff (hline.isBlank_last hsuffix)).mpr ⟨gap, hgap, rfl, hphrase⟩

theorem named_words?_eq_some_iff {name : String} (hline : IsTrimmed line) {words : List Char} :
    (named? name line).bind words? = some words ↔
      ∃ gap, IsGap gap ∧ IsPhrase words ∧ line = name.toList ++ (gap ++ words) := by
  rw [Option.bind_eq_some_iff]
  constructor
  · rintro ⟨rest, hnamed, hwords⟩
    have hlast := hline.isBlank_last (named?_suffix hnamed)
    obtain ⟨gap, hgap, rfl, hphrase⟩ := (words?_eq_some_iff hlast).mp hwords
    exact ⟨gap, hgap, hphrase, named?_eq_some_iff.mp hnamed⟩
  · rintro ⟨gap, hgap, hphrase, rfl⟩
    have hlast := hline.isBlank_last (List.suffix_append name.toList (gap ++ words))
    exact ⟨_, named?_eq_some_iff.mpr rfl, (words?_eq_some_iff hlast).mpr ⟨gap, hgap, rfl, hphrase⟩⟩

theorem named_word?_eq_some_iff {name : String} {word : List Char} :
    (named? name line).bind word? = some word ↔
      ∃ gap rest, IsGap gap ∧ IsSolid word ∧ (∀ c ∈ rest.head?, isBlank c = true) ∧
        line = name.toList ++ (gap ++ (word ++ rest)) := by
  simp only [Option.bind_eq_some_iff, named?_eq_some_iff, word?_eq_some_iff]
  constructor
  · rintro ⟨_, rfl, gap, rest, hgap, rfl, hword, hrest⟩
    exact ⟨gap, rest, hgap, hword, hrest, rfl⟩
  · rintro ⟨gap, rest, hgap, hword, hrest, rfl⟩
    exact ⟨_, rfl, gap, rest, hgap, rfl, hword, hrest⟩

theorem deprecated?_eq_some_iff (hline : IsTrimmed line) {reason : Option (List Char)} :
    deprecated? line = some reason ↔
      line = "@deprecated".toList ∧ reason = none ∨
        ∃ gap text, reason = some text ∧ IsGap gap ∧ IsPhrase text ∧
          line = "@deprecated".toList ++ (gap ++ text) := by
  simp only [deprecated?, Option.bind_eq_bind, Option.bind_eq_some_iff, named?_eq_some_iff]
  constructor
  · rintro ⟨rest, rfl, hread⟩
    split at hread
    · rename_i hnil
      exact Or.inl ⟨by rw [hnil, List.append_nil], (Option.some.inj hread).symm⟩
    · simp only [Option.bind_eq_some_iff, Option.pure_def, Option.some.injEq] at hread
      obtain ⟨text, hblanks, _, hunbroken, rfl⟩ := hread
      obtain ⟨gap, hgap, rfl, hunindented⟩ := blanks?_eq_some_iff.mp hblanks
      obtain ⟨rfl, hunbroken⟩ := unbroken?_eq_some hunbroken
      refine Or.inr ⟨gap, _, rfl, hgap, ⟨⟨?_, hunbroken⟩, hunindented⟩, rfl⟩
      -- A gap with nothing behind it would be a blank at the end of the line.
      rintro rfl
      have hlast := hline.isBlank_last (List.suffix_append "@deprecated".toList (gap ++ []))
      rw [List.append_nil] at hlast
      have hblank := hgap.blank _ (List.getLast_mem hgap.nonempty)
      rw [hlast _ (List.getLast?_eq_some_getLast hgap.nonempty)] at hblank
      cases hblank
  · rintro (⟨rfl, rfl⟩ | ⟨gap, text, rfl, hgap, htext, rfl⟩)
    · exact ⟨[], rfl, rfl⟩
    · refine ⟨_, rfl, ?_⟩
      have hne : gap ++ text ≠ [] := List.append_ne_nil_of_left_ne_nil hgap.nonempty text
      rw [if_neg hne, blanks?_append hgap htext.unindented]
      simp [unbroken?, htext.unbroken]

theorem link?_eq_some_iff (hline : IsTrimmed line) {url : List Char}
    {caption : Option (List Char)} :
    link? line = some (url, caption) ↔
      ∃ gap rest, IsGap gap ∧ IsSolid url ∧ line = "@link".toList ++ (gap ++ (url ++ rest)) ∧
        (rest = [] ∧ caption = none ∨
          ∃ captionGap text, caption = some text ∧ IsGap captionGap ∧ IsPhrase text ∧
            rest = captionGap ++ text) := by
  simp only [link?, Option.bind_eq_bind, Option.bind_eq_some_iff, Prod.exists, named?_eq_some_iff,
    blanks?_eq_some_iff, blankRun?_eq_some_iff]
  constructor
  · rintro ⟨_, rfl, _, ⟨gap, hgap, rfl, -⟩, word, rest, ⟨hword, rfl, -⟩, hread⟩
    split at hread
    · rename_i hnil
      obtain ⟨rfl, rfl⟩ := Prod.mk.inj (Option.some.inj hread)
      exact ⟨gap, rest, hgap, hword, rfl, Or.inl ⟨hnil, rfl⟩⟩
    · simp only [Option.bind_eq_some_iff, Option.pure_def, Option.some.injEq,
        Prod.mk.injEq] at hread
      obtain ⟨text, hwords, rfl, rfl⟩ := hread
      have hsuffix : rest <:+ "@link".toList ++ (gap ++ (word ++ rest)) :=
        (List.suffix_append word rest).trans
          ((List.suffix_append gap _).trans (List.suffix_append _ _))
      obtain ⟨captionGap, hcaptionGap, rfl, htext⟩ :=
        (words?_eq_some_iff (hline.isBlank_last hsuffix)).mp hwords
      exact ⟨gap, _, hgap, hword, rfl, Or.inr ⟨captionGap, text, rfl, hcaptionGap, htext, rfl⟩⟩
  · rintro ⟨gap, rest, hgap, hurl, rfl, ⟨rfl, rfl⟩ | ⟨captionGap, text, rfl, hcaptionGap, htext,
      rfl⟩⟩
    · exact ⟨_, rfl, _, ⟨gap, hgap, rfl, hurl.isUnindented []⟩, url, [],
        ⟨hurl, rfl, by simp⟩, rfl⟩
    · have hsuffix : captionGap ++ text <:+
          "@link".toList ++ (gap ++ (url ++ (captionGap ++ text))) :=
        (List.suffix_append url _).trans
          ((List.suffix_append gap _).trans (List.suffix_append _ _))
      have hwords := (words?_eq_some_iff (hline.isBlank_last hsuffix)).mpr
        ⟨captionGap, hcaptionGap, rfl, htext⟩
      have hne : captionGap ++ text ≠ [] :=
        List.append_ne_nil_of_left_ne_nil hcaptionGap.nonempty text
      refine ⟨_, rfl, _, ⟨gap, hgap, rfl, hurl.isUnindented _⟩, url, captionGap ++ text,
        ⟨hurl, rfl, hcaptionGap.blank_head text⟩, ?_⟩
      rw [if_neg hne, hwords]
      rfl

theorem hasForm_of_mem_forms (hline : IsTrimmed line) {form : Line → Option Tag}
    (hform : form ∈ forms) {tag : Tag} (hread : form line = some tag) : HasForm line tag := by
  simp only [forms, List.mem_cons, List.not_mem_nil, or_false] at hform
  rcases hform with rfl | rfl | rfl | rfl | rfl | rfl | rfl | rfl | rfl
  all_goals obtain ⟨_, hfound, rfl⟩ := Option.map_eq_some_iff.mp hread
  · obtain ⟨ending, gap, rest, hending, hgap, htypes, hrest, rfl⟩ := return?_eq_some_iff.mp hfound
    exact .returns hending hgap htypes hrest
  · exact .parameter (parameter?_eq_some_iff.mp hfound)
  · rcases (deprecated?_eq_some_iff hline).mp hfound with
      ⟨rfl, rfl⟩ | ⟨gap, reason, rfl, hgap, hreason, rfl⟩
    · exact .deprecated
    · have hvalue : Deprecation.ofText (some reason) = .because (String.ofList reason) := by
        simp [Deprecation.ofText, Option.filter_some, hreason.nonempty]
      rw [hvalue]
      exact .because hgap hreason
  · obtain ⟨gap, hgap, hname, rfl⟩ := (named_words?_eq_some_iff hline).mp hfound
    exact .author hgap hname
  · obtain ⟨gap, rest, hgap, hlevel, hrest, rfl⟩ := named_word?_eq_some_iff.mp hfound
    exact .access hgap hlevel hrest
  · obtain ⟨ending, gap, hending, hgap, htext, rfl⟩ :=
      (words?_dropOptional_eq_some_iff hline).mp hfound
    exact .throws hending hgap htext
  · obtain ⟨gap, hgap, htext, rfl⟩ := (named_words?_eq_some_iff hline).mp hfound
    exact .todo hgap htext
  · obtain ⟨gap, rest, hgap, hname, hrest, rfl⟩ := named_word?_eq_some_iff.mp hfound
    exact .alias hgap hname hrest
  · obtain ⟨gap, rest, hgap, hurl, rfl, ⟨rfl, hcaption⟩ | ⟨captionGap, text, hcaption, hcaptionGap,
      htext, rfl⟩⟩ := (link?_eq_some_iff hline).mp hfound
    · rw [hcaption, List.append_nil]
      exact .link hgap hurl
    · rw [hcaption]
      exact .captioned hgap hurl hcaptionGap htext

theorem HasForm.exists_form {tag : Tag} (hform : HasForm line tag) (hline : IsTrimmed line) :
    ∃ form ∈ forms, form line = some tag := by
  simp only [forms, List.mem_cons, List.not_mem_nil, or_false, exists_eq_or_imp, exists_eq_left]
  cases hform with
  | returns hending hgap htypes hrest =>
      have hread := return?_eq_some_iff.mpr ⟨_, _, _, hending, hgap, htypes, hrest, rfl⟩
      rw [hread]
      simp [Return.ofText]
  | parameter htext =>
      rw [parameter?_eq_some_iff.mpr htext]
      simp
  | deprecated =>
      rw [(deprecated?_eq_some_iff hline).mpr (Or.inl ⟨rfl, rfl⟩)]
      simp [Deprecation.ofText]
  | because hgap hreason =>
      have hread := (deprecated?_eq_some_iff hline).mpr (Or.inr ⟨_, _, rfl, hgap, hreason, rfl⟩)
      rw [hread]
      simp [Deprecation.ofText, Option.filter_some, hreason.nonempty]
  | author hgap hname =>
      have hread : author? _ = _ := (named_words?_eq_some_iff hline).mpr ⟨_, hgap, hname, rfl⟩
      rw [hread]
      simp
  | access hgap hlevel hrest =>
      have hread : access? _ = _ := named_word?_eq_some_iff.mpr ⟨_, _, hgap, hlevel, hrest, rfl⟩
      rw [hread]
      simp
  | throws hending hgap htext =>
      have hread : throws? _ = _ :=
        (words?_dropOptional_eq_some_iff hline).mpr ⟨_, _, hending, hgap, htext, rfl⟩
      rw [hread]
      simp
  | todo hgap htext =>
      have hread : todo? _ = _ := (named_words?_eq_some_iff hline).mpr ⟨_, hgap, htext, rfl⟩
      rw [hread]
      simp
  | «alias» hgap hname hrest =>
      have hread : alias? _ = _ := named_word?_eq_some_iff.mpr ⟨_, _, hgap, hname, hrest, rfl⟩
      rw [hread]
      simp
  | @link gap url hgap hurl =>
      have hread := (link?_eq_some_iff hline).mpr
        ⟨gap, [], hgap, hurl, by rw [List.append_nil], Or.inl ⟨rfl, rfl⟩⟩
      rw [hread]
      simp [Link.ofText]
  | captioned hgap hurl hcaptionGap hcaption =>
      have hread := (link?_eq_some_iff hline).mpr
        ⟨_, _, hgap, hurl, rfl, Or.inr ⟨_, _, rfl, hcaptionGap, hcaption, rfl⟩⟩
      rw [hread]
      simp [Link.ofText]

/-- A line without spaces at its ends contributes a tag other than description exactly if it has the
form of that tag. -/
theorem ofLine?_eq_some_iff_hasForm {tag : Tag} (hline : IsTrimmed line)
    (hfield : tag.field ≠ "description") : ofLine? line = some tag ↔ HasForm line tag := by
  rw [ofLine?_eq_some_iff_exists_form hfield]
  constructor
  · rintro ⟨form, hform, hread⟩
    exact hasForm_of_mem_forms hline hform hread
  · exact fun hform => hform.exists_form hline

/-- A link with line feeds in its gaps and a space in its address that is no blank. -/
def spacedLink : Line :=
  "@link\n https://example.org/\u00a0a\n\tsee  also".toList

/-- A link whose caption would have to go on behind a line feed. -/
def brokenLink : Line :=
  "@link https://example.org/ see\nalso".toList

theorem ofLine?_eq_some_iff_hasForm_link :
    (IsTrimmed spacedLink ∧
      ofLine? spacedLink =
        some (.link { url := "https://example.org/\u00a0a", caption := some "see  also" })) ∧
      (IsTrimmed brokenLink ∧
        ¬ HasForm brokenLink (.link { url := "https://example.org/", caption := some "see" })) := by
  have hspaced : IsTrimmed spacedLink := by decide +kernel
  have hbroken : IsTrimmed brokenLink := by decide +kernel
  refine ⟨⟨hspaced, ?_⟩, hbroken, fun hform => ?_⟩
  · have hgap : IsGap "\n ".toList := by decide +kernel
    have hurl : IsSolid "https://example.org/\u00a0a".toList := by decide +kernel
    have hcaptionGap : IsGap "\n\t".toList := by decide +kernel
    have hcaption : IsPhrase "see  also".toList :=
      ⟨⟨by decide +kernel, by decide +kernel⟩, by decide +kernel⟩
    have hform := HasForm.captioned hgap hurl hcaptionGap hcaption
    exact (ofLine?_eq_some_iff_hasForm hspaced (by decide)).mpr hform
  · have hread := (ofLine?_eq_some_iff_hasForm hbroken (by decide)).mpr hform
    revert hread
    decide +kernel

end Tag

end StyleDoc
