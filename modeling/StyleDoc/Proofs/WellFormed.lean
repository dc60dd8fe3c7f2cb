import StyleDoc.Proofs.OnePass
import StyleDoc.Proofs.PlainText
import StyleDoc.Proofs.Text.Lines
import StyleDoc.Proofs.Text.Steps

/-!
What the items of a stylesheet can hold. A line has no line feed and its text has no space at either
end; from that and from the form of the tag that is read follows what the tag can hold, and an item
holds nothing that did not come with a tag. Names, words and remarks can therefore be printed
without a look at what is in them.
-/

namespace StyleDoc

namespace Text

/-- A text without spaces at its ends. -/
structure IsTrimmed (text : List Char) : Prop where
  head : ∀ c ∈ text.head?, isSpace c = false
  last : ∀ c ∈ text.getLast?, isSpace c = false

/-- A text of one word. -/
structure IsSolid (text : List Char) : Prop where
  nonempty : text ≠ []
  unparted : ∀ c ∈ text, isBlank c = false

/-- A text on one line that says something. -/
structure IsRemark (text : List Char) : Prop where
  nonempty : text ≠ []
  unbroken : '\n' ∉ text

theorem IsSolid.unbroken {text : List Char} (hsolid : IsSolid text) : '\n' ∉ text :=
  fun hmem => absurd (hsolid.unparted _ hmem) (by decide)

theorem trim_isInfix (text : List Char) : trim text <:+: text := by
  rw [trim, trimRight_eq_rdropWhile]
  exact (List.rdropWhile_prefix _ _).isInfix.trans (List.dropWhile_suffix _).isInfix

theorem isTrimmed_trim (text : List Char) : IsTrimmed (trim text) where
  head := by
    intro c hc
    obtain ⟨rest, hrest⟩ : trim text <+: trimLeft text := List.rdropWhile_prefix _ _
    have hleft : c ∈ (trimLeft text).head? := by
      rw [← hrest, List.head?_append, Option.mem_def, hc]
      rfl
    have hfirst := List.head?_dropWhile_not isSpace text
    rw [trimLeft, Option.mem_def] at hleft
    simpa [hleft] using hfirst
  last := by
    intro c hc
    have hne : trim text ≠ [] := by
      rintro hnil
      simp [hnil] at hc
    have hlast : ¬ isSpace ((trim text).getLast hne) = true :=
      List.rdropWhile_last_not isSpace (trimLeft text) hne
    have heq : (trim text).getLast hne = c := by
      rwa [List.getLast?_eq_some_getLast hne, Option.mem_def, Option.some.injEq] at hc
    rw [← heq]
    simpa using hlast

/-- Parentheses stay flat when only other characters are taken off at the end. -/
theorem IsFlat.of_append {text run : List Char} (hflat : IsFlat (text ++ run))
    (hrun : ∀ c ∈ run, ¬ IsParenthesis c) : IsFlat text := by
  generalize hwhole : text ++ run = whole at hflat
  induction hflat generalizing text with
  | nil =>
      rw [(List.append_eq_nil_iff.mp hwhole).1]
      exact .nil
  | char c rest hc _ ih =>
      cases text with
      | nil => exact .nil
      | cons d text =>
          obtain ⟨rfl, hrest⟩ := List.cons.inj hwhole
          exact .char d text hc (ih hrest)
  | group inner rest hinner _ ih =>
      cases text with
      | nil => exact .nil
      | cons d text =>
          obtain ⟨rfl, hrest⟩ := List.cons.inj hwhole
          rcases List.append_eq_append_iff.mp hrest with ⟨left, rfl, hleft⟩ | ⟨left, rfl, hleft⟩
          · exact absurd (Or.inr rfl) (hrun ')' (by simp [hleft]))
          · cases left with
            | nil =>
                rw [List.nil_append] at hleft
                exact absurd (Or.inr rfl) (hrun ')' (hleft ▸ List.mem_cons_self))
            | cons closing left =>
                obtain ⟨rfl, hafter⟩ := List.cons.inj hleft
                exact .group inner left hinner (ih hafter.symm)

theorem isFlat_dropWhile_isSpace {text : List Char} (hflat : IsFlat text) :
    IsFlat (text.dropWhile isSpace) := by
  induction hflat with
  | nil => exact .nil
  | char c rest hc hrest ih =>
      rw [List.dropWhile_cons]
      split
      · exact ih
      · exact .char c rest hc hrest
  | group inner rest hinner hrest _ => exact .group inner rest hinner hrest

theorem IsFlat.trim {text : List Char} (hflat : IsFlat text) : IsFlat (Text.trim text) := by
  have hleft : IsFlat (trimLeft text) := isFlat_dropWhile_isSpace hflat
  rw [← List.rdropWhile_append_rtakeWhile (p := isSpace) (l := trimLeft text)] at hleft
  refine hleft.of_append fun c hc hparenthesis => ?_
  have hspace : isSpace c = true := List.mem_rtakeWhile_imp hc
  rcases hparenthesis with rfl | rfl <;> exact absurd hspace (by decide)

theorem unbroken_of_isInfix {piece text : List Char} (hpiece : piece <:+: text)
    (htext : '\n' ∉ text) : '\n' ∉ piece :=
  fun hmem => htext (hpiece.subset hmem)

/-- A cut text has its line feeds between the lines and not in them. -/
theorem unbroken_of_mem_lines {text line : List Char} (hline : line ∈ lines text) :
    '\n' ∉ line := by
  obtain ⟨segment, hsegment, rfl⟩ := List.mem_map.mp hline
  rcases unbroken_or_ended_of_mem_segments hsegment with hunbroken | ⟨body, hbody, rfl⟩
  · exact unbroken_of_isInfix (isPrefix_dropTerminator segment).isInfix hunbroken
  · obtain ⟨trail, _, hwhole⟩ := exists_append_dropTerminator body
    have hpart : dropTerminator (body ++ ['\n']) <+: body := ⟨trail, hwhole.symm⟩
    exact unbroken_of_isInfix hpart.isInfix hbody

end Text

open Text

namespace Comment

theorem afterMarker_suffix (line : Line) : afterMarker line <:+ line := by
  have hdropped {rest : Line} (hrest : rest <:+ dropBlanks line) : rest <:+ line :=
    hrest.trans (dropBlanks_suffix line)
  unfold afterMarker
  split
  · rename_i rest hdrop
    refine hdropped ((List.dropWhile_suffix _).trans ?_)
    exact ⟨['/', '/'], by simp [hdrop]⟩
  · rename_i rest hdrop
    refine hdropped ((List.dropWhile_suffix _).trans ?_)
    exact ⟨['/', '*'], by simp [hdrop]⟩
  · rename_i rest hdrop
    have hstars : rest.dropWhile (· == '*') <:+ line :=
      hdropped ((List.dropWhile_suffix _).trans ⟨['*'], by simp [hdrop]⟩)
    split
    · rename_i after hslash
      rw [hslash] at hstars
      exact (List.suffix_cons '/' after).trans hstars
    · exact hstars
  · exact dropBlanks_suffix line

theorem beforeCloser_isPrefix (line : Line) : beforeCloser line <+: line := by
  unfold beforeCloser
  split
  · rename_i front hclosed
    rw [← List.reverse_suffix, List.reverse_reverse]
    have hfront : front <:+ line.reverse.dropWhile isBlank := ⟨['/', '*'], by simp [hclosed]⟩
    exact (List.dropWhile_suffix _).trans (hfront.trans (List.dropWhile_suffix _))
  · exact List.prefix_refl _

/-- The text of a comment line is a piece of it, with no space at either end. -/
theorem text_isInfix (line : Line) : Comment.text line <:+: line :=
  (trim_isInfix _).trans
    ((beforeCloser_isPrefix _).isInfix.trans (afterMarker_suffix line).isInfix)

end Comment

/-- Types and description come together, and there is at least one type. -/
structure Return.IsWellFormed (value : Return) : Prop where
  together : value.types = none ↔ value.description = none
  nonempty : value.types ≠ some []
  types : ∀ types ∈ value.types, ∀ type ∈ types,
    IsTrimmed type.toList ∧ '|' ∉ type.toList ∧ '}' ∉ type.toList ∧ '\n' ∉ type.toList
  description : ∀ description ∈ value.description, '\n' ∉ description.toList

structure Parameter.IsWellFormed (value : Parameter) : Prop where
  type : IsTrimmed value.type.toList ∧ '}' ∉ value.type.toList ∧ '\n' ∉ value.type.toList
  name : ∃ name, IsName name ∧ (value.name.toList = name ∨ value.name.toList = '$' :: name)
  default : ∀ default ∈ value.default,
    IsRemark default.toList ∧ IsTrimmed default.toList ∧ IsFlat default.toList
  description : '\n' ∉ value.description.toList

/-- A reason says something. -/
def Deprecation.IsWellFormed : Deprecation → Prop
  | .because reason => IsRemark reason.toList
  | _ => True

structure Link.IsWellFormed (value : Link) : Prop where
  url : IsSolid value.url.toList
  caption : ∀ caption ∈ value.caption, IsRemark caption.toList

/-- What an item can hold. Names and words are on one line because a line feed is a blank, and
parentheses in a default are nested at most one level deep. -/
structure Item.IsWellFormed (item : Item) : Prop where
  name : IsName item.name.toList
  description : ∀ line ∈ item.descriptionTexts, line ≠ [] ∧ IsTrimmed line
  access : IsSolid item.access.toList
  deprecated : item.deprecated.IsWellFormed
  author : ∀ author ∈ item.author, IsRemark author.toList
  returns : item.returns.IsWellFormed
  parameters : ∀ parameter ∈ item.parameters, parameter.IsWellFormed
  throws : ∀ text ∈ item.throws, IsRemark text.toList
  todos : ∀ text ∈ item.todos, IsRemark text.toList
  aliases : ∀ name ∈ item.aliases, IsSolid name.toList
  links : ∀ link ∈ item.links, link.IsWellFormed

namespace Tag

/-- What a tag can hold. -/
def IsWellFormed : Tag → Prop
  | .description text =>
      ∃ line, text = String.ofList ('\n' :: line) ∧ IsRemark line ∧ IsTrimmed line
  | .returns value => value.IsWellFormed
  | .parameter value => value.IsWellFormed
  | .deprecated value => value.IsWellFormed
  | .author text | .throws text | .todo text => IsRemark text.toList
  | .access text | .alias text => IsSolid text.toList
  | .link value => value.IsWellFormed

theorem isWellFormed_return {types description : List Char} (hbrace : '}' ∉ types)
    (htypes : '\n' ∉ types) (hdescription : '\n' ∉ description) :
    (Return.ofText types description).IsWellFormed where
  together := by simp [Return.ofText]
  nonempty := by simp [Return.ofText, List.splitOn_ne_nil]
  types := by
    intro _ halternatives _ hmem
    obtain rfl := Option.mem_some.mp halternatives
    obtain ⟨type, htype, rfl⟩ := List.mem_map.mp hmem
    obtain ⟨hbar, hsubset⟩ := not_mem_and_subset_of_mem_splitOn htype
    have hpiece := (trim_isInfix type).subset
    rw [String.toList_ofList]
    exact ⟨isTrimmed_trim type, fun hin => hbar (hpiece hin),
      fun hin => hbrace (hsubset (hpiece hin)), fun hin => htypes (hsubset (hpiece hin))⟩
  description := by
    intro _ hmem
    obtain rfl := Option.mem_some.mp hmem
    simpa using hdescription

theorem isWellFormed_parameter {text : ParameterText} (hbrace : '}' ∉ text.type)
    (htype : '\n' ∉ text.type)
    (hname : ∃ name, IsName name ∧ (text.name = name ∨ text.name = '$' :: name))
    (hdefault : ∀ default ∈ text.default, IsFlat default ∧ '\n' ∉ default)
    (hdescription : '\n' ∉ text.description) : (Parameter.ofText text).IsWellFormed where
  type := by
    have hpiece := trim_isInfix text.type
    simpa [Parameter.ofText] using ⟨isTrimmed_trim text.type, fun hmem =>
      hbrace (hpiece.subset hmem), unbroken_of_isInfix hpiece htype⟩
  name := by simpa [Parameter.ofText] using hname
  default := by
    intro _ hmem
    simp only [Parameter.ofText, Option.mem_def, Option.map_eq_some_iff, Option.filter_eq_some_iff,
      decide_eq_true_eq] at hmem
    obtain ⟨_, ⟨⟨default, htext, rfl⟩, hne⟩, rfl⟩ := hmem
    obtain ⟨hflat, hunbroken⟩ := hdefault default htext
    rw [String.toList_ofList]
    exact ⟨⟨hne, unbroken_of_isInfix (trim_isInfix default) hunbroken⟩, isTrimmed_trim default,
      hflat.trim⟩
  description := by simpa [Parameter.ofText] using hdescription

theorem isWellFormed_deprecation {reason : Option (List Char)}
    (hreason : ∀ text ∈ reason, '\n' ∉ text) : (Deprecation.ofText reason).IsWellFormed := by
  unfold Deprecation.ofText
  split
  · rename_i text hkept
    simp only [Option.filter_eq_some_iff, decide_eq_true_eq] at hkept
    exact ⟨by simpa using hkept.2, by simpa using hreason text hkept.1⟩
  · trivial

variable {line : Line}

theorem isWellFormed_of_return? (hline : '\n' ∉ line) {types description : List Char}
    (hread : return? line = some (types, description)) :
    (Return.ofText types description).IsWellFormed := by
  simp only [return?, Option.bind_eq_bind, Option.bind_eq_some_iff, Option.pure_def,
    Option.some.injEq, Prod.exists, Prod.mk.injEq] at hread
  obtain ⟨rest, hrest, gap, hgap, _, after, hbraced, _, hdescription, rfl, rfl⟩ := hread
  obtain ⟨hbrace, rfl⟩ := braced?_eq_some hbraced
  have hgapSuffix := (blanks?_suffix hgap).trans
    ((dropOptional_suffix 's' rest).trans (named?_suffix hrest))
  have hgapUnbroken := unbroken_of_isInfix hgapSuffix.isInfix hline
  refine isWellFormed_return hbrace ?_ (description?_unbroken hdescription)
  exact fun hmem => hgapUnbroken (by simp [hmem])

theorem isWellFormed_of_parameter? (hline : '\n' ∉ line) {text : ParameterText}
    (hread : parameter? line = some text) : (Parameter.ofText text).IsWellFormed := by
  simp only [parameter?, Option.bind_eq_bind, Option.bind_eq_some_iff, Prod.exists] at hread
  obtain ⟨rest, hrest, gap, hgap, type, afterType, hbraced, nameGap, hnameGap, name, afterName,
    hnamed, hread⟩ := hread
  obtain ⟨hbrace, rfl⟩ := braced?_eq_some hbraced
  obtain ⟨hname, hafterName⟩ := parameterName?_eq_some hnamed
  have hgapUnbroken := unbroken_of_isInfix
    ((blanks?_suffix hgap).trans (named?_suffix hrest)).isInfix hline
  have htype : '\n' ∉ type := fun hmem => hgapUnbroken (by simp [hmem])
  have hafterType : '\n' ∉ afterType := fun hmem => hgapUnbroken (by simp [hmem])
  split at hread
  · rename_i default after hdefault
    simp only [Option.bind_eq_some_iff, Option.pure_def, Option.some.injEq] at hread
    obtain ⟨description, hdescription, rfl⟩ := hread
    obtain ⟨hflat, hinside⟩ := default?_eq_some hdefault
    have hpiece := hinside.trans (hafterName.trans (blanks?_suffix hnameGap)).isInfix
    refine isWellFormed_parameter hbrace htype hname ?_ (description?_unbroken hdescription)
    intro _ hmem
    obtain rfl := Option.mem_some.mp hmem
    exact ⟨hflat, unbroken_of_isInfix hpiece hafterType⟩
  · simp only [Option.bind_eq_some_iff, Option.pure_def, Option.some.injEq] at hread
    obtain ⟨description, hdescription, rfl⟩ := hread
    exact isWellFormed_parameter hbrace htype hname (by simp) (description?_unbroken hdescription)

theorem isWellFormed_of_deprecated? {reason : Option (List Char)}
    (hread : deprecated? line = some reason) : (Deprecation.ofText reason).IsWellFormed := by
  simp only [deprecated?, Option.bind_eq_bind, Option.bind_eq_some_iff] at hread
  obtain ⟨rest, _, hread⟩ := hread
  refine isWellFormed_deprecation ?_
  split at hread
  · cases hread
    simp
  · simp only [Option.bind_eq_some_iff, Option.pure_def, Option.some.injEq] at hread
    obtain ⟨gap, _, text, htext, rfl⟩ := hread
    obtain ⟨rfl, hunbroken⟩ := unbroken?_eq_some htext
    intro _ hmem
    obtain rfl := Option.mem_some.mp hmem
    exact hunbroken

theorem isWellFormed_of_link? {url : List Char} {caption : Option (List Char)}
    (hread : link? line = some (url, caption)) : (Link.ofText url caption).IsWellFormed := by
  simp only [link?, Option.bind_eq_bind, Option.bind_eq_some_iff, Prod.exists] at hread
  obtain ⟨rest, _, gap, _, word, after, hrun, hread⟩ := hread
  obtain ⟨hne, hword, _⟩ := run?_eq_some hrun
  have hsolid : IsSolid word := ⟨hne, by simpa using hword⟩
  split at hread
  · cases hread
    exact ⟨by simpa [Link.ofText] using hsolid, by simp [Link.ofText]⟩
  · simp only [Option.bind_eq_some_iff, Option.pure_def, Option.some.injEq,
      Prod.mk.injEq] at hread
    obtain ⟨words, hwords, rfl, rfl⟩ := hread
    obtain ⟨hwordsNe, hunbroken⟩ := words?_eq_some hwords
    refine ⟨by simpa [Link.ofText] using hsolid, ?_⟩
    intro _ hmem
    obtain rfl := Option.mem_some.mp hmem
    exact ⟨by simpa using hwordsNe, by simpa using hunbroken⟩

theorem isRemark_of_words? {text words : List Char} (hread : words? text = some words) :
    IsRemark (String.ofList words).toList := by
  obtain ⟨hne, hunbroken⟩ := words?_eq_some hread
  exact ⟨by simpa using hne, by simpa using hunbroken⟩

theorem isSolid_of_word? {text word : List Char} (hread : word? text = some word) :
    IsSolid (String.ofList word).toList := by
  obtain ⟨hne, hunparted⟩ := word?_eq_some hread
  exact ⟨by simpa using hne, by simpa using hunparted⟩

/-- The forms one by one, in the order in which they are tried. -/
theorem isWellFormed_of_mem_forms (hline : '\n' ∉ line) {form : Line → Option Tag}
    (hform : form ∈ forms) {tag : Tag} (hread : form line = some tag) : tag.IsWellFormed := by
  simp only [forms, List.mem_cons, List.not_mem_nil, or_false] at hform
  rcases hform with rfl | rfl | rfl | rfl | rfl | rfl | rfl | rfl | rfl
  all_goals obtain ⟨_, hfound, rfl⟩ := Option.map_eq_some_iff.mp hread
  · exact isWellFormed_of_return? hline hfound
  · exact isWellFormed_of_parameter? hline hfound
  · exact isWellFormed_of_deprecated? hfound
  · obtain ⟨_, _, hauthor⟩ := Option.bind_eq_some_iff.mp hfound
    exact isRemark_of_words? hauthor
  · obtain ⟨_, _, haccess⟩ := Option.bind_eq_some_iff.mp hfound
    exact isSolid_of_word? haccess
  · obtain ⟨_, _, hthrows⟩ := Option.bind_eq_some_iff.mp hfound
    exact isRemark_of_words? hthrows
  · obtain ⟨_, _, htodo⟩ := Option.bind_eq_some_iff.mp hfound
    exact isRemark_of_words? htodo
  · obtain ⟨_, _, halias⟩ := Option.bind_eq_some_iff.mp hfound
    exact isSolid_of_word? halias
  · exact isWellFormed_of_link? hfound

/-- Whatever a comment line contributes is well formed. -/
theorem isWellFormed_of_ofLine? (hline : '\n' ∉ line) (htrimmed : IsTrimmed line) {tag : Tag}
    (hread : ofLine? line = some tag) : tag.IsWellFormed := by
  unfold ofLine? at hread
  split at hread
  · cases hread
  · rename_i hkept
    split at hread
    · rename_i found hfound
      obtain rfl := Option.some.inj hread
      obtain ⟨form, hform, hformed⟩ := List.exists_of_findSome?_eq_some hfound
      exact isWellFormed_of_mem_forms hline hform hformed
    · obtain rfl := Option.some.inj hread
      have hne : line ≠ [] := by
        rintro rfl
        exact hkept rfl
      exact ⟨line, rfl, ⟨hne, hline⟩, htrimmed⟩

end Tag

namespace Item

variable {tags : List Tag}

/-- What a well-formed tag gives to a field is well formed, and so is all that the field holds. -/
theorem forall_mem_filterMap {α : Type} {f : Tag → Option α} {p : α → Prop}
    (htags : ∀ tag ∈ tags, tag.IsWellFormed)
    (hread : ∀ tag value, tag.IsWellFormed → f tag = some value → p value) :
    ∀ value ∈ tags.filterMap f, p value := by
  intro value hvalue
  obtain ⟨tag, htag, hfound⟩ := List.mem_filterMap.mp hvalue
  exact hread tag value (htags tag htag) hfound

/-- The last value of a field is one of its values or stands in for all of them. -/
theorem getLast?_getD_of_forall_mem {α : Type} {values : List α} {p : α → Prop} {default : α}
    (hvalues : ∀ value ∈ values, p value) (hdefault : p default) :
    p (values.getLast?.getD default) := by
  cases hlast : values.getLast? with
  | none => exact hdefault
  | some value => exact hvalues value (List.mem_of_getLast? hlast)

theorem forall_mem_descriptionTexts {item : Item} {texts : List (List Char)}
    (hdescription : item.description = String.ofList (['\n'].intercalate texts))
    (htexts : ∀ text ∈ texts, '\n' ∉ text) : ∀ line ∈ item.descriptionTexts, line ∈ texts := by
  intro line hline
  unfold descriptionTexts at hline
  split at hline
  · cases hline
  · rename_i hne
    have hsome : texts ≠ [] := by
      rintro rfl
      exact hne hdescription
    rwa [hdescription, String.toList_ofList, List.splitOn_intercalate '\n' htexts hsome] at hline

/-- Well-formed tags add up to a well-formed item, whatever their order. -/
theorem isWellFormed_ofTags (htags : ∀ tag ∈ tags, tag.IsWellFormed) {name : String}
    (hname : IsName name.toList) (kind : Kind) :
    { Item.ofTags tags with kind, name : Item }.IsWellFormed where
  name := hname
  description := by
    have htexts : ∀ text ∈ tags.filterMap Tag.asDescription?, IsRemark text ∧ IsTrimmed text := by
      refine forall_mem_filterMap htags fun tag text htag hread => ?_
      cases tag with
      | description _ =>
          obtain ⟨line, rfl, hremark, htrimmed⟩ := htag
          simp only [Tag.asDescription?, String.toList_ofList, List.tail_cons,
            Option.some.injEq] at hread
          exact hread ▸ ⟨hremark, htrimmed⟩
      | _ => cases hread
    intro line hline
    have hmem := forall_mem_descriptionTexts rfl (fun text htext => (htexts text htext).1.unbroken)
      line hline
    exact ⟨(htexts line hmem).1.nonempty, (htexts line hmem).2⟩
  access := getLast?_getD_of_forall_mem (p := fun text : String => IsSolid text.toList)
    (forall_mem_filterMap htags fun tag _ htag hread => by cases tag <;> cases hread; exact htag)
    ⟨by decide, by simp [isBlank]⟩
  deprecated := getLast?_getD_of_forall_mem (p := Deprecation.IsWellFormed)
    (forall_mem_filterMap htags fun tag _ htag hread => by cases tag <;> cases hread; exact htag)
    trivial
  author := by
    intro author hauthor
    refine forall_mem_filterMap (f := Tag.asAuthor?)
      (p := fun text : String => IsRemark text.toList) htags ?_ author
      (List.mem_of_getLast? hauthor)
    exact fun tag _ htag hread => by cases tag <;> cases hread; exact htag
  returns := getLast?_getD_of_forall_mem (p := Return.IsWellFormed)
    (forall_mem_filterMap htags fun tag _ htag hread => by cases tag <;> cases hread; exact htag)
    ⟨by simp, by simp, by simp, by simp⟩
  parameters := forall_mem_filterMap htags fun tag _ htag hread => by
    cases tag <;> cases hread; exact htag
  throws := forall_mem_filterMap htags fun tag _ htag hread => by
    cases tag <;> cases hread; exact htag
  todos := forall_mem_filterMap htags fun tag _ htag hread => by
    cases tag <;> cases hread; exact htag
  aliases := forall_mem_filterMap htags fun tag _ htag hread => by
    cases tag <;> cases hread; exact htag
  links := forall_mem_filterMap htags fun tag _ htag hread => by
    cases tag <;> cases hread; exact htag

end Item

namespace Declaration

theorem isName_of_ofLine? {line : Line} {declaration : Declaration}
    (hread : ofLine? line = some declaration) : IsName declaration.name.toList := by
  simp only [ofLine?, Option.bind_eq_bind, Option.bind_eq_some_iff, Option.pure_def,
    Option.some.injEq, Prod.exists] at hread
  obtain ⟨_, _, _, _, _, name, _, hrun, rfl⟩ := hread
  obtain ⟨hne, hname, _⟩ := run?_eq_some hrun
  exact ⟨by simpa using hne, by simpa using hname⟩

end Declaration

namespace Stylesheet

/-- Every item comes from a header and from comment lines above it. -/
theorem exists_of_mem_items {content : String} {item : Item} (hitem : item ∈ items content) :
    ∃ line declaration comments, Declaration.ofLine? line = some declaration ∧
      (∀ comment ∈ comments, comment ∈ lines content) ∧ item = declaration.item comments := by
  obtain ⟨part, hpart, rfl⟩ := List.mem_map.mp hitem
  obtain ⟨⟨line, index⟩, _, hread⟩ := List.mem_filterMap.mp hpart
  obtain ⟨declaration, hdeclaration, rfl⟩ := Option.map_eq_some_iff.mp hread
  refine ⟨line, declaration, _, hdeclaration, fun comment hcomment => ?_, rfl⟩
  rw [Block.above_eq_rtakeWhile] at hcomment
  exact List.mem_of_mem_take ((List.rtakeWhile_suffix _ _).subset hcomment)

theorem isWellFormed_of_mem_tags {content : String} {comments : List Line}
    (hcomments : ∀ comment ∈ comments, comment ∈ lines content) {tag : Tag}
    (htag : tag ∈ Block.tags comments) : tag.IsWellFormed := by
  obtain ⟨comment, hcomment, hread⟩ := List.mem_filterMap.mp htag
  have hunbroken : '\n' ∉ comment := unbroken_of_mem_lines (hcomments comment hcomment)
  exact Tag.isWellFormed_of_ofLine? (unbroken_of_isInfix (Comment.text_isInfix comment) hunbroken)
    (isTrimmed_trim _) hread

/-- Every item that a stylesheet can give is well formed. -/
theorem isWellFormed_of_mem_items (content : String) :
    ∀ item ∈ items content, item.IsWellFormed := by
  intro item hitem
  obtain ⟨line, declaration, comments, hheader, hcomments, rfl⟩ := exists_of_mem_items hitem
  rw [Declaration.item, Block.item_eq_ofTags]
  exact Item.isWellFormed_ofTags (fun tag => isWellFormed_of_mem_tags hcomments)
    (Declaration.isName_of_ofLine? hheader) declaration.kind

/-- A mixin whose tags have gaps where their texts could be. -/
def gridSource : String :=
  "/**\n *\n * Rows \r\n * @param \x7b \x7d $opts ( (gap: 1rem) ) -\n" ++
    " * @return \x7bMap| |Null\x7d\n * @deprecated \xa0\n * @link #grid  \t **/\n@mixin grid()"

def grid : Item where
  kind := .mixin
  name := "grid"
  description := "Rows"
  deprecated := .deprecated
  returns := { types := some ["Map", "", "Null"], description := some "" }
  parameters :=
    [{ type := "", name := "$opts", default := some "(gap: 1rem)", description := "" }]
  links := [{ url := "#grid" }]

theorem isWellFormed_grid : grid ∈ items gridSource ∧ grid.IsWellFormed := by
  have hgrid : grid ∈ items gridSource := by decide +kernel
  exact ⟨hgrid, isWellFormed_of_mem_items gridSource grid hgrid⟩

end Stylesheet

end StyleDoc
