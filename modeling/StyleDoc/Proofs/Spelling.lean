import StyleDoc.Proofs.PlainText
import StyleDoc.Proofs.Text.Lines

/-!
Every spelling of a tag is read as that tag. Each part of a spelling is found again by the step
that reads it, because what stands behind a part begins with a character that ends it: a brace, a
parenthesis, a gap. A tag can then only be confused with another one by its name, and the names are
told apart before anything else is looked at.
-/

namespace StyleDoc.Tag

open Text

/-- What a clause begins with. In particular it neither prolongs a name nor opens a default. -/
theorem clause_cases {description clause : List Char} (hplain : IsPlain description)
    (hclause : clause ∈ clauses description) :
    (description = [] ∧ (clause = " -".toList ∨ clause = [])) ∨
      (description ≠ [] ∧ clause = " - ".toList ++ description) ∨
      ∃ c rest, description = c :: rest ∧ clause = ' ' :: c :: rest ∧ isBlank c = false ∧
        c ≠ '-' ∧ c ≠ '(' := by
  unfold clauses at hclause
  split at hclause
  · exact Or.inl ⟨rfl, by simpa using hclause⟩
  · exact Or.inr (Or.inl ⟨by simp, by simpa using hclause⟩)
  · exact Or.inr (Or.inl ⟨by simp, by simpa using hclause⟩)
  · rename_i hnil hhyphen hparenthesis
    cases description with
    | nil => exact absurd rfl hnil
    | cons c rest =>
        rcases List.mem_cons.mp hclause with rfl | hbare
        · exact Or.inr (Or.inl ⟨by simp, rfl⟩)
        · refine Or.inr (Or.inr ⟨c, rest, rfl, by simpa using hbare, ?_, ?_, ?_⟩)
          · exact hplain.isBlank_head c rfl
          · rintro rfl
            exact hhyphen rest rfl
          · rintro rfl
            exact hparenthesis rest rfl

theorem unbroken?_of_isPlain {text : List Char} (hplain : IsPlain text) :
    unbroken? text = some text := by
  simp [unbroken?, hplain.unbroken]

theorem description?_clause {description clause : List Char} (hplain : IsPlain description)
    (hclause : clause ∈ clauses description) : description? clause = some description := by
  have hdrop : dropBlanks (' ' :: description) = description := by
    change dropBlanks description = description
    exact dropBlanks_of_head hplain.isBlank_head
  rcases clause_cases hplain hclause with
    ⟨rfl, rfl | rfl⟩ | ⟨_, rfl⟩ | ⟨c, rest, rfl, rfl, hblank, hhyphen, _⟩
  · rfl
  · rfl
  · change unbroken? (dropBlanks (' ' :: description)) = _
    rw [hdrop, unbroken?_of_isPlain hplain]
  · have hgap : blanks? (' ' :: c :: rest) = some (c :: rest) :=
      blanks?_space hplain.isBlank_head
    simp only [description?, hgap]
    split
    · rename_i heq
      cases heq
      exact absurd rfl hhyphen
    · rw [hdrop, unbroken?_of_isPlain hplain]

/-- Text in which parentheses are flat is read up to the one that closes it. -/
theorem upToClosing?_append {text : List Char} (hflat : IsFlat text) (rest : List Char) :
    upToClosing? false (text ++ ')' :: rest) = some (text, rest) := by
  have hinside (inner after : List Char) (hinner : ∀ c ∈ inner, ¬ IsParenthesis c)
      (read : List Char × List Char)
      (hafter : upToClosing? false after = some read) :
      upToClosing? true (inner ++ ')' :: after) = some (inner ++ ')' :: read.1, read.2) := by
    induction inner with
    | nil => simp [upToClosing?, hafter]
    | cons c inner ih =>
        have hc := hinner c List.mem_cons_self
        simp only [IsParenthesis, not_or] at hc
        have hrest := ih fun d hmem => hinner d (List.mem_cons_of_mem _ hmem)
        simp [upToClosing?, hc.1, hc.2, hrest]
  induction hflat with
  | nil => simp [upToClosing?]
  | char c text hc _ ih =>
      simp only [IsParenthesis, not_or] at hc
      simp [upToClosing?, hc.1, hc.2, ih]
  | group inner text hinner _ ih =>
      have hgroup := hinside inner (text ++ ')' :: rest) hinner _ ih
      simp [upToClosing?, hgroup]

theorem clause_head {description clause : List Char} (hplain : IsPlain description)
    (hclause : clause ∈ clauses description) : ∀ c ∈ clause.head?, c = ' ' := by
  rcases clause_cases hplain hclause with
    ⟨_, rfl | rfl⟩ | ⟨_, rfl⟩ | ⟨_, _, _, rfl, _⟩ <;> simp

theorem default?_clause {description clause : List Char} (hplain : IsPlain description)
    (hclause : clause ∈ clauses description) : default? clause = none := by
  rcases clause_cases hplain hclause with
    ⟨_, rfl | rfl⟩ | ⟨_, rfl⟩ | ⟨c, rest, rfl, rfl, _, _, hparenthesis⟩
  · rfl
  · rfl
  · rfl
  · have hgap : blanks? (' ' :: c :: rest) = some (c :: rest) :=
      blanks?_space hplain.isBlank_head
    simp only [default?, hgap]
    split
    · rename_i heq
      cases heq
      exact absurd rfl hparenthesis
    · rfl

theorem default?_parentheses {default : List Char} (hflat : IsFlat default) (rest : List Char) :
    default? (" (".toList ++ default ++ ')' :: rest) = some (default, rest) := by
  have hgap : blanks? (' ' :: '(' :: (default ++ ')' :: rest)) =
      some ('(' :: (default ++ ')' :: rest)) := blanks?_space (by simp [isBlank])
  simp [default?, hgap, upToClosing?_append hflat]

theorem parameterName?_append {written name : List Char} (hname : IsName name)
    (hwritten : written = name ∨ written = '$' :: name) {rest : List Char}
    (hrest : ∀ c ∈ rest.head?, isNameChar c = false) :
    parameterName? (written ++ rest) = some (written, rest) := by
  have hrun := run?_append hname.1 hname.2 hrest
  rcases hwritten with rfl | rfl
  · cases written with
    | nil => exact absurd rfl hname.1
    | cons c name =>
        have hdollar : c ≠ '$' := by
          rintro rfl
          exact absurd (hname.2 '$' List.mem_cons_self) (by decide)
        unfold parameterName?
        split
        · rename_i heq
          exact absurd (List.cons.inj heq).1 hdollar
        · exact hrun
  · simp [parameterName?, hrun]

theorem words?_space {text : List Char} (hplain : IsPlain text) (hne : text ≠ []) :
    words? (' ' :: text) = some text := by
  cases text with
  | nil => exact absurd rfl hne
  | cons c rest =>
      have hblank : isBlank c = false := hplain.isBlank_head c rfl
      have hspace : isBlank ' ' = true := by decide
      simp [words?, hblank, hspace, unbroken?_of_isPlain hplain]

theorem word?_space {word : List Char} (hword : IsWord word) : word? (' ' :: word) = some word := by
  have hrun : run? (! isBlank ·) (word ++ []) = some (word, []) :=
    run?_append hword.nonempty (by simpa using hword.unparted) (by simp)
  rw [List.append_nil] at hrun
  simp [word?, blanks?_space hword.isBlank_head, hrun]

theorem return?_spelling {opening types description clause : List Char}
    (hopening : opening ∈ ["@return ".toList, "@returns ".toList]) (htypes : '}' ∉ types)
    (hplain : IsPlain description) (hclause : clause ∈ clauses description) :
    return? (opening ++ ['{'] ++ types ++ ['}'] ++ clause) = some (types, description) := by
  have hgap : blanks? (' ' :: '{' :: (types ++ '}' :: clause)) =
      some ('{' :: (types ++ '}' :: clause)) := blanks?_space (by simp [isBlank])
  have hbraced := braced?_append clause htypes
  have hdescription := description?_clause hplain hclause
  simp only [List.mem_cons, List.not_mem_nil, or_false] at hopening
  rcases hopening with rfl | rfl <;>
    simp [return?, named?, literal?, dropOptional, hgap, hbraced, hdescription]

theorem isBlank_head_of_isName {written name : List Char} (hname : IsName name)
    (hwritten : written = name ∨ written = '$' :: name) (rest : List Char) :
    ∀ c ∈ (written ++ rest).head?, isBlank c = false := by
  rcases hwritten with rfl | rfl
  · cases written with
    | nil => exact absurd rfl hname.1
    | cons c name =>
        simpa using isBlank_eq_false_of_isSpace
          (isSpace_eq_false_of_isNameChar (hname.2 c List.mem_cons_self))
  · simp [isBlank]

theorem parameter?_spelling {value : Parameter} {clause : List Char}
    (hvalue : (Tag.parameter value).IsWritable)
    (hclause : clause ∈ clauses value.description.toList) :
    parameter? ("@param ".toList ++ ['{'] ++ value.type.toList ++ ['}', ' '] ++
        value.name.toList ++ writtenDefault value ++ clause) =
      some { type := value.type.toList
             name := value.name.toList
             default := value.default.map String.toList
             description := value.description.toList } := by
  obtain ⟨_, hbrace, ⟨name, hname, hwritten⟩, hdefault, hplain⟩ := hvalue
  have hdescription := description?_clause hplain hclause
  have hnone := default?_clause hplain hclause
  have hspace : isNameChar ' ' = false := by decide
  have hgap (after : List Char) :
      blanks? (' ' :: '{' :: (value.type.toList ++ '}' :: after)) =
        some ('{' :: (value.type.toList ++ '}' :: after)) := blanks?_space (by simp [isBlank])
  have hbraced (after : List Char) := braced?_append after hbrace
  have hgapName (after : List Char) := blanks?_space (isBlank_head_of_isName hname hwritten after)
  cases hcase : value.default with
  | none =>
      have hhead : ∀ c ∈ clause.head?, isNameChar c = false := by
        intro c hc
        rw [clause_head hplain hclause c hc, hspace]
      have hparameterName := parameterName?_append hname hwritten hhead
      simp [parameter?, named?, literal?, writtenDefault, hcase, hgap, hbraced, hgapName,
        hparameterName, hnone, hdescription]
  | some default =>
      have hflat := (hdefault default hcase).2.2
      have hread := default?_parentheses hflat clause
      have hhead : ∀ c ∈ (" (".toList ++ default.toList ++ ')' :: clause).head?,
          isNameChar c = false := by simp [hspace]
      have hparameterName := parameterName?_append hname hwritten hhead
      simp only [String.reduceToList, List.cons_append, List.nil_append] at hread hparameterName
      simp [parameter?, named?, literal?, writtenDefault, hcase, hgap, hbraced, hgapName,
        hparameterName, hread, hdescription]

theorem link?_spelling {value : Link} (hvalue : (Tag.link value).IsWritable) :
    link? ("@link ".toList ++ value.url.toList ++ writtenCaption value) =
      some (value.url.toList, value.caption.map String.toList) := by
  obtain ⟨hurl, hcaption⟩ := hvalue
  have hspace : isBlank ' ' = true := by decide
  have hrun (rest : List Char) (hrest : ∀ c ∈ rest.head?, (! isBlank c) = false) :
      run? (! isBlank ·) (value.url.toList ++ rest) = some (value.url.toList, rest) :=
    run?_append hurl.nonempty (by simpa using hurl.unparted) hrest
  have hgap (rest : List Char) : blanks? (' ' :: (value.url.toList ++ rest)) =
      some (value.url.toList ++ rest) := by
    refine blanks?_space ?_
    simpa [List.head?_append_of_ne_nil _ hurl.nonempty] using hurl.isBlank_head
  cases hcase : value.caption with
  | none =>
      have hread := hrun [] (by simp)
      have hgapUrl := hgap []
      rw [List.append_nil] at hread hgapUrl
      simp [link?, named?, literal?, writtenCaption, hcase, hgapUrl, hread]
  | some caption =>
      obtain ⟨hplain, hne⟩ := hcaption caption hcase
      have hread := hrun (' ' :: caption.toList) (by simp [hspace])
      simp [link?, named?, literal?, writtenCaption, hcase, hgap, hread,
        words?_space hplain hne]

theorem isPlain_append_clause {body description clause : List Char} (hne : body ≠ [])
    (hbreak : '\n' ∉ body) (hhead : ∀ c ∈ body.head?, isSpace c = false)
    (hlast : ∀ c ∈ body.getLast?, isSpace c = false ∧ c ≠ '/') (hplain : IsPlain description)
    (hclause : clause ∈ clauses description) : IsPlain (body ++ clause) := by
  have hhead' (after : List Char) : ∀ c ∈ (body ++ after).head?, isSpace c = false := by
    simpa [List.head?_append_of_ne_nil _ hne] using hhead
  rcases clause_cases hplain hclause with
    ⟨rfl, rfl | rfl⟩ | ⟨hdescription, rfl⟩ | ⟨c, rest, rfl, rfl, _⟩
  · refine IsPlain.of_last (by simp [hbreak]) (hhead' _) ?_
    simp [isSpace, isBlank]
  · rw [List.append_nil]
    exact IsPlain.of_last hbreak hhead hlast
  · rw [← List.append_assoc]
    exact hplain.append hdescription (by simp) (by simp [hbreak]) (hhead' _) (by simp)
  · rw [← List.singleton_append, ← List.append_assoc]
    exact hplain.append (by simp) (by simp) (by simp [hbreak]) (hhead' _) (by simp)

theorem not_mem_writtenTypes {value : Return} {c : Char} (hc : c ≠ '|')
    (htypes : ∀ type ∈ value.types.getD [], c ∉ type.toList) : c ∉ writtenTypes value := by
  intro hmem
  rcases mem_intercalate hmem with heq | ⟨text, htext, hinside⟩
  · exact hc heq
  · obtain ⟨type, htype, rfl⟩ := List.mem_map.mp htext
    exact htypes type htype hinside

theorem last_of_mark {front : List Char} {mark : Char} (hspace : isSpace mark = false)
    (hslash : mark ≠ '/') :
    ∀ c ∈ (front ++ [mark]).getLast?, isSpace c = false ∧ c ≠ '/' := by
  intro c hc
  rw [List.getLast?_concat] at hc
  cases hc
  exact ⟨hspace, hslash⟩

theorem last_of_isName {front written name : List Char} (hname : IsName name)
    (hwritten : written = name ∨ written = '$' :: name) :
    ∀ c ∈ (front ++ written).getLast?, isSpace c = false ∧ c ≠ '/' := by
  intro c hc
  have hlast : (front ++ written).getLast? = name.getLast? := by
    rcases hwritten with rfl | rfl
    · exact List.getLast?_append_of_ne_nil _ hname.1
    · rw [← List.singleton_append, ← List.append_assoc]
      exact List.getLast?_append_of_ne_nil _ hname.1
  have hchar : isNameChar c = true :=
    hname.2 c (List.mem_of_getLast? (hlast ▸ hc))
  refine ⟨isSpace_eq_false_of_isNameChar hchar, ?_⟩
  rintro rfl
  exact absurd hchar (by decide)

theorem break_not_mem_of_isName {written name : List Char} (hname : IsName name)
    (hwritten : written = name ∨ written = '$' :: name) : '\n' ∉ written := by
  have hbreak : '\n' ∉ name := fun hmem => absurd (hname.2 _ hmem) (by decide)
  rcases hwritten with rfl | rfl
  · exact hbreak
  · simpa using hbreak

/-- The texts of the lines that a writable tag is written on are themselves plain. -/
theorem isPlain_of_mem_spellings {tag : Tag} (htag : tag.IsWritable) {text : List Char}
    (htext : text ∈ tag.spellings) : IsPlain text := by
  have hspelled {text opening : List Char} (hplain : IsPlain text) (hne : text ≠ [])
      (hopening : opening ∈ ["@deprecated ".toList, "@author ".toList, "@access ".toList,
        "@throw ".toList, "@throws ".toList, "@todo ".toList, "@alias ".toList,
        "@link ".toList]) : IsPlain (opening ++ text) := by
    simp only [List.mem_cons, List.not_mem_nil, or_false] at hopening
    rcases hopening with rfl | rfl | rfl | rfl | rfl | rfl | rfl | rfl <;>
      exact hplain.append hne (by simp) (by simp) (by simp [isSpace, isBlank]) (by simp)
  cases tag with
  | description _ =>
      obtain ⟨line, rfl, hplain, _⟩ := htag
      simp only [spellings, String.toList_ofList, List.tail_cons, List.mem_singleton] at htext
      rwa [htext]
  | returns value =>
      obtain ⟨types, description, rfl, _, hplain, htypes⟩ := htag
      simp only [spellings, List.mem_flatMap, List.mem_map] at htext
      obtain ⟨opening, hopening, clause, hclause, rfl⟩ := htext
      have hbreak : '\n' ∉ writtenTypes { types := some types, description := some description } :=
        not_mem_writtenTypes (by decide) fun type hmem => (htypes type hmem).1.unbroken
      simp only [List.mem_cons, List.not_mem_nil, or_false] at hopening
      rcases hopening with rfl | rfl <;>
        exact isPlain_append_clause (by simp) (by simp [hbreak]) (by simp [isSpace, isBlank])
          (last_of_mark (by decide) (by decide)) hplain hclause
  | parameter value =>
      obtain ⟨htype, _, ⟨name, hname, hwritten⟩, hdefault, hplain⟩ := htag
      simp only [spellings, List.mem_map] at htext
      obtain ⟨clause, hclause, rfl⟩ := htext
      have hbreak := break_not_mem_of_isName hname hwritten
      cases hcase : value.default with
      | none =>
          simp only [writtenDefault, hcase, List.append_nil]
          exact isPlain_append_clause (by simp) (by simp [htype.unbroken, hbreak])
            (by simp [isSpace, isBlank]) (last_of_isName hname hwritten) hplain hclause
      | some default =>
          simp only [writtenDefault, hcase]
          refine isPlain_append_clause (by simp) ?_ (by simp [isSpace, isBlank]) ?_ hplain hclause
          · simp [htype.unbroken, hbreak, (hdefault default hcase).1.unbroken]
          · rw [← List.append_assoc]
            exact last_of_mark (by decide) (by decide)
  | deprecated value =>
      cases value with
      | current => exact htag.elim
      | deprecated =>
          obtain rfl := List.mem_singleton.mp htext
          exact IsPlain.of_last (by simp) (by simp [isSpace, isBlank]) (by simp [isSpace, isBlank])
      | because reason =>
          obtain rfl := List.mem_singleton.mp htext
          exact hspelled htag.1 htag.2 (by simp)
  | author name | todo name =>
      obtain rfl := List.mem_singleton.mp htext
      exact hspelled htag.1 htag.2 (by simp)
  | access word | «alias» word =>
      obtain rfl := List.mem_singleton.mp htext
      exact hspelled htag.toIsPlain htag.nonempty (by simp)
  | throws reason =>
      simp only [spellings, List.mem_cons, List.not_mem_nil, or_false] at htext
      rcases htext with rfl | rfl <;> exact hspelled htag.1 htag.2 (by simp)
  | link value =>
      obtain rfl := List.mem_singleton.mp htext
      have hurl : IsPlain ("@link ".toList ++ value.url.toList) :=
        hspelled htag.1.toIsPlain htag.1.nonempty (by simp)
      cases hcaption : value.caption with
      | none => simpa [writtenCaption, hcaption] using hurl
      | some caption =>
          obtain ⟨hplain, hne⟩ := htag.2 caption hcaption
          have hwritten : writtenCaption value = ' ' :: caption.toList := by
            simp [writtenCaption, hcaption]
          rw [hwritten, ← List.singleton_append, ← List.append_assoc]
          refine hplain.append hne (by simp) (by simp [htag.1.unbroken])
            (by simp [isSpace, isBlank]) ?_
          rw [List.getLast?_concat]
          simp

/-- A line that begins with an at sign is dropped only if it asks for it. -/
theorem ofLine?_at {c : Char} {rest : Line} {tag : Tag} (hc : c ≠ 'i')
    (hfound : forms.findSome? (· ('@' :: c :: rest)) = some tag) :
    ofLine? ('@' :: c :: rest) = some tag := by
  have homitted : named? "@ignore" ('@' :: c :: rest) = none := by
    simp [named?, literal?, Ne.symm hc]
  have hkept : isSkipped ('@' :: c :: rest) = false := by
    simp [isSkipped, isRule, isOmitted, isBlank, homitted]
  simp [ofLine?, hkept, hfound]

theorem return_ofText_writtenTypes {types : List String} (description : String)
    (hne : types ≠ [])
    (htypes : ∀ type ∈ types, IsPlain type.toList ∧ '|' ∉ type.toList ∧ '}' ∉ type.toList) :
    Return.ofText (writtenTypes { types := some types, description := some description })
        description.toList =
      { types := some types, description := some description } := by
  have hsplit : (['|'].intercalate (types.map String.toList)).splitOn '|' =
      types.map String.toList := by
    refine List.splitOn_intercalate '|' ?_ (by simpa using hne)
    simp only [List.mem_map, forall_exists_index, and_imp, forall_apply_eq_imp_iff₂]
    exact fun type hmem => (htypes type hmem).2.1
  have htrim : types.map (fun type => String.ofList (trim type.toList)) = types := by
    refine (List.map_congr_left fun type hmem => ?_).trans (List.map_id types)
    rw [(htypes type hmem).1.trim, String.ofList_toList, id_eq]
  simp only [Return.ofText, writtenTypes, Option.getD_some, hsplit, List.map_map,
    String.ofList_toList]
  simpa [Function.comp_def] using htrim

theorem parameter_ofText_texts {value : Parameter} (hvalue : (Tag.parameter value).IsWritable) :
    Parameter.ofText { type := value.type.toList
                       name := value.name.toList
                       default := value.default.map String.toList
                       description := value.description.toList } = value := by
  obtain ⟨htype, _, _, hdefault, _⟩ := hvalue
  cases value with
  | mk type name default description =>
      cases default with
      | none => simp [Parameter.ofText, htype.trim]
      | some default =>
          obtain ⟨hplain, hne, _⟩ := hdefault default rfl
          simp [Parameter.ofText, htype.trim, hplain.trim, hne]

theorem ofLine?_description {text : String} (htag : (Tag.description text).IsWritable) :
    ofLine? text.toList.tail = some (.description text) := by
  obtain ⟨line, rfl, _, hne, hrule, homitted, hforms⟩ := htag
  have hnone : forms.findSome? (· line) = none := by
    rw [List.findSome?_eq_none_iff]
    exact hforms
  simp [ofLine?, isSkipped, hne, hrule, homitted, hnone]

theorem ofLine?_returns {value : Return} (htag : (Tag.returns value).IsWritable)
    {text : List Char} (htext : text ∈ (Tag.returns value).spellings) :
    ofLine? text = some (.returns value) := by
  obtain ⟨types, description, rfl, hne, hplain, htypes⟩ := htag
  simp only [spellings, List.mem_flatMap, List.mem_map] at htext
  obtain ⟨opening, hopening, clause, hclause, rfl⟩ := htext
  have hbrace : '}' ∉ writtenTypes { types := some types, description := some description } :=
    not_mem_writtenTypes (by decide) fun type hmem => (htypes type hmem).2.2
  have hread := return?_spelling hopening hbrace hplain hclause
  have hvalue := return_ofText_writtenTypes description hne htypes
  simp only [List.mem_cons, List.not_mem_nil, or_false] at hopening
  rcases hopening with rfl | rfl <;>
    simp only [String.reduceToList, List.cons_append, List.nil_append, List.append_assoc]
      at hread ⊢
  · refine ofLine?_at (by decide) ?_
    simp [forms, hread, hvalue]
  · refine ofLine?_at (by decide) ?_
    simp [forms, hread, hvalue]

theorem ofLine?_parameter {value : Parameter} (htag : (Tag.parameter value).IsWritable)
    {text : List Char} (htext : text ∈ (Tag.parameter value).spellings) :
    ofLine? text = some (.parameter value) := by
  have hvalue := parameter_ofText_texts htag
  simp only [spellings, List.mem_map] at htext
  obtain ⟨clause, hclause, rfl⟩ := htext
  have hread := parameter?_spelling htag hclause
  simp only [String.reduceToList, List.cons_append, List.nil_append, List.append_assoc] at hread ⊢
  refine ofLine?_at (by decide) ?_
  simp [forms, return?, named?, literal?, hread, hvalue]

theorem ofLine?_because {reason : String} (htag : (Tag.deprecated (.because reason)).IsWritable) :
    ofLine? ("@deprecated ".toList ++ reason.toList) = some (.deprecated (.because reason)) := by
  have hgap := blanks?_space htag.1.isBlank_head
  have hvalue : Deprecation.ofText (some reason.toList) = .because reason := by
    have hne : reason ≠ "" := by simpa using htag.2
    simp [Deprecation.ofText, Option.filter_some, hne]
  simp only [String.reduceToList, List.cons_append, List.nil_append]
  refine ofLine?_at (by decide) ?_
  simp [forms, return?, parameter?, deprecated?, named?, literal?, hgap,
    unbroken?_of_isPlain htag.1, hvalue]

/-- A writable tag is read from every one of its spellings. -/
theorem ofLine?_of_mem_spellings {tag : Tag} (htag : tag.IsWritable) {text : List Char}
    (htext : text ∈ tag.spellings) : ofLine? text = some tag := by
  cases tag with
  | description _ =>
      obtain rfl := List.mem_singleton.mp htext
      exact ofLine?_description htag
  | returns value => exact ofLine?_returns htag htext
  | parameter value => exact ofLine?_parameter htag htext
  | deprecated value =>
      cases value with
      | current => exact htag.elim
      | deprecated =>
          obtain rfl := List.mem_singleton.mp htext
          simp only [String.reduceToList]
          refine ofLine?_at (by decide) ?_
          simp [forms, return?, parameter?, deprecated?, named?, literal?, Deprecation.ofText]
      | because reason =>
          obtain rfl := List.mem_singleton.mp htext
          exact ofLine?_because htag
  | author name =>
      obtain rfl := List.mem_singleton.mp htext
      simp only [String.reduceToList, List.cons_append, List.nil_append]
      refine ofLine?_at (by decide) ?_
      simp [forms, return?, parameter?, deprecated?, author?, named?, literal?,
        words?_space htag.1 htag.2]
  | access word =>
      obtain rfl := List.mem_singleton.mp htext
      simp only [String.reduceToList, List.cons_append, List.nil_append]
      refine ofLine?_at (by decide) ?_
      simp [forms, return?, parameter?, deprecated?, author?, access?, named?, literal?,
        word?_space htag]
  | throws reason =>
      simp only [spellings, List.mem_cons, List.not_mem_nil, or_false] at htext
      rcases htext with rfl | rfl <;>
        simp only [String.reduceToList, List.cons_append, List.nil_append]
      · refine ofLine?_at (by decide) ?_
        simp [forms, return?, parameter?, deprecated?, author?, access?, throws?, named?,
          literal?, dropOptional, words?_space htag.1 htag.2]
      · refine ofLine?_at (by decide) ?_
        simp [forms, return?, parameter?, deprecated?, author?, access?, throws?, named?,
          literal?, dropOptional, words?_space htag.1 htag.2]
  | todo task =>
      obtain rfl := List.mem_singleton.mp htext
      simp only [String.reduceToList, List.cons_append, List.nil_append]
      refine ofLine?_at (by decide) ?_
      simp [forms, return?, parameter?, deprecated?, author?, access?, throws?, todo?, named?,
        literal?, words?_space htag.1 htag.2]
  | «alias» word =>
      obtain rfl := List.mem_singleton.mp htext
      simp only [String.reduceToList, List.cons_append, List.nil_append]
      refine ofLine?_at (by decide) ?_
      simp [forms, return?, parameter?, deprecated?, author?, access?, throws?, todo?, alias?,
        named?, literal?, word?_space htag]
  | link value =>
      have hread := link?_spelling htag
      obtain rfl := List.mem_singleton.mp htext
      simp only [String.reduceToList, List.cons_append, List.nil_append] at hread ⊢
      refine ofLine?_at (by decide) ?_
      simp [forms, return?, parameter?, deprecated?, author?, access?, throws?, todo?, alias?,
        named?, literal?, hread, Link.ofText]

end StyleDoc.Tag
