import StyleDoc.Proofs.Spelling
import StyleDoc.Proofs.WellFormed

/-!
The parts that tag lines are made of, said without the steps that read them: gaps, defaults in
parentheses, descriptions with or without a hyphen, words. A part goes on for as long as it can, so
a text has each of them in one way at most, and a step finds a part exactly where there is one.
-/

namespace StyleDoc

namespace Text

/-- What stands between two words: one or more blanks. -/
structure IsGap (gap : List Char) : Prop where
  nonempty : gap ≠ []
  blank : ∀ c ∈ gap, isBlank c = true

instance (gap : List Char) : Decidable (IsGap gap) :=
  decidable_of_iff (gap ≠ [] ∧ gap.all isBlank = true)
    ⟨fun h => ⟨h.1, List.all_eq_true.mp h.2⟩, fun h => ⟨h.nonempty, List.all_eq_true.mpr h.blank⟩⟩

instance (word : List Char) : Decidable (IsSolid word) :=
  decidable_of_iff (word ≠ [] ∧ word.all (!isBlank ·) = true)
    ⟨fun h => ⟨h.1, by simpa using h.2⟩, fun h => ⟨h.nonempty, by simpa using h.unparted⟩⟩

/-- A text that takes nothing from a gap in front of it. -/
def IsUnindented (text : List Char) : Prop :=
  ∀ c ∈ text.head?, isBlank c = false

instance (text : List Char) : Decidable (IsUnindented text) :=
  decidable_of_iff (text.head?.all (!isBlank ·)) (by simp [IsUnindented, Option.all_eq_true])

theorem isUnindented_cons {c : Char} (hc : isBlank c = false) (rest : List Char) :
    IsUnindented (c :: rest) := by
  simpa [IsUnindented] using hc

theorem IsSolid.isUnindented {word : List Char} (hword : IsSolid word) (rest : List Char) :
    IsUnindented (word ++ rest) := by
  cases word with
  | nil => exact absurd rfl hword.nonempty
  | cons c word => exact isUnindented_cons (hword.unparted c List.mem_cons_self) _

theorem isUnindented_dropBlanks (text : List Char) : IsUnindented (dropBlanks text) := by
  intro c hc
  have hhead := List.head?_dropWhile_not isBlank text
  rw [dropBlanks, Option.mem_def] at hc
  simpa [hc] using hhead

theorem dropBlanks_append {lead rest : List Char} (hlead : ∀ c ∈ lead, isBlank c = true)
    (hrest : IsUnindented rest) : dropBlanks (lead ++ rest) = rest :=
  dropWhile_append_of_stop hlead hrest

theorem IsGap.blank_head {gap : List Char} (hgap : IsGap gap) (rest : List Char) :
    ∀ c ∈ (gap ++ rest).head?, isBlank c = true := by
  cases gap with
  | nil => exact absurd rfl hgap.nonempty
  | cons c gap => simpa using hgap.blank c List.mem_cons_self

theorem blanks?_append {gap rest : List Char} (hgap : IsGap gap) (hrest : IsUnindented rest) :
    blanks? (gap ++ rest) = some rest := by
  cases gap with
  | nil => exact absurd rfl hgap.nonempty
  | cons c gap =>
      obtain ⟨hc, hblank⟩ := List.forall_mem_cons.mp hgap.blank
      rw [List.cons_append, blanks?, if_pos hc, dropBlanks_append hblank hrest]

theorem blanks?_eq_some_iff {text rest : List Char} :
    blanks? text = some rest ↔ ∃ gap, IsGap gap ∧ text = gap ++ rest ∧ IsUnindented rest := by
  constructor
  · intro hread
    cases text with
    | nil => cases hread
    | cons c text =>
        simp only [blanks?, Option.ite_none_right_eq_some, Option.some.injEq] at hread
        obtain ⟨hc, rfl⟩ := hread
        have hblank : ∀ d ∈ text.takeWhile isBlank, isBlank d = true :=
          fun d hd => List.mem_takeWhile_imp hd
        refine ⟨c :: text.takeWhile isBlank, ⟨by simp, by simpa [hc] using hblank⟩, ?_,
          isUnindented_dropBlanks text⟩
        rw [dropBlanks, List.cons_append, List.takeWhile_append_dropWhile]
  · rintro ⟨gap, hgap, rfl, hrest⟩
    exact blanks?_append hgap hrest

theorem run?_eq_some_iff {accepts : Char → Bool} {text run rest : List Char} :
    run? accepts text = some (run, rest) ↔
      run ≠ [] ∧ (∀ c ∈ run, accepts c = true) ∧ text = run ++ rest ∧
        ∀ c ∈ rest.head?, accepts c = false := by
  constructor
  · intro hread
    obtain ⟨hne, hrun, htext⟩ := run?_eq_some hread
    refine ⟨hne, hrun, htext, fun c hc => ?_⟩
    have hrest : text.dropWhile accepts = rest := by
      unfold run? at hread
      split at hread
      · cases hread
      · exact (Prod.mk.inj (Option.some.inj hread)).2
    have hhead := List.head?_dropWhile_not accepts text
    rw [hrest] at hhead
    rw [Option.mem_def] at hc
    simpa [hc] using hhead
  · rintro ⟨hne, hrun, rfl, hstop⟩
    exact run?_append hne hrun hstop

theorem braced?_eq_some_iff {text inner rest : List Char} :
    braced? text = some (inner, rest) ↔ '}' ∉ inner ∧ text = '{' :: (inner ++ '}' :: rest) := by
  constructor
  · exact braced?_eq_some
  · rintro ⟨hinner, rfl⟩
    exact braced?_append rest hinner

/-- A remark that takes nothing from the gap in front of it. -/
structure IsPhrase (text : List Char) : Prop extends IsRemark text where
  unindented : IsUnindented text

end Text

namespace Tag

open Text

variable {text after : List Char}

/-- A text that begins with a gap and a default in parentheses. -/
def OpensDefault (text default after : List Char) : Prop :=
  IsFlat default ∧ ∃ gap, IsGap gap ∧ text = gap ++ '(' :: (default ++ ')' :: after)

/-- A text that begins with a gap and a hyphen. -/
def OpensHyphen (text after : List Char) : Prop :=
  ∃ gap, IsGap gap ∧ text = gap ++ '-' :: after

/-- What is left of a text when the default that it may begin with is taken. -/
inductive TakesDefault (text : List Char) : Option (List Char) → List Char → Prop where
  | written {default after : List Char} (hopens : OpensDefault text default after) :
      TakesDefault text (some default) after
  | missing (hopens : ∀ default after, ¬ OpensDefault text default after) :
      TakesDefault text none text

/-- What is left of a text when the hyphen that it may begin with is dropped. -/
inductive DropsHyphen (text : List Char) : List Char → Prop where
  | written {after : List Char} (hopens : OpensHyphen text after) : DropsHyphen text after
  | missing (hopens : ∀ after, ¬ OpensHyphen text after) : DropsHyphen text text

/-- The description that a text amounts to, which no line feed interrupts: an optional hyphen is
dropped, and then all blanks. -/
def IsDescribed (text description : List Char) : Prop :=
  ∃ lead, DropsHyphen text (lead ++ description) ∧ (∀ c ∈ lead, isBlank c = true) ∧
    IsUnindented description ∧ '\n' ∉ description

/-- The name of a parameter, with or without a dollar sign. -/
def IsParameterName (written : List Char) : Prop :=
  ∃ name, IsName name ∧ (written = name ∨ written = '$' :: name)

/-- The final `s` that the names of some tags may have. -/
def IsPlural (ending : List Char) : Prop :=
  ending = [] ∨ ending = ['s']

theorem upToClosing?_eq_some_iff {whole : List Char} :
    upToClosing? false whole = some (text, after) ↔ IsFlat text ∧ whole = text ++ ')' :: after := by
  constructor
  · intro hread
    obtain ⟨hwhole, hflat⟩ := upToClosing?_eq_some hread
    exact ⟨by simpa using hflat, hwhole⟩
  · rintro ⟨hflat, rfl⟩
    exact upToClosing?_append hflat after

/-- What a gap leads to is told by the first character behind it. -/
theorem blanks?_mark {gap : List Char} (hgap : IsGap gap) {mark : Char}
    (hmark : isBlank mark = false) (rest : List Char) :
    blanks? (gap ++ mark :: rest) = some (mark :: rest) :=
  blanks?_append hgap (isUnindented_cons hmark rest)

theorem default?_eq_some_iff {default : List Char} :
    default? text = some (default, after) ↔ OpensDefault text default after := by
  constructor
  · intro hread
    unfold default? at hread
    split at hread
    · rename_i body hblanks
      obtain ⟨gap, hgap, rfl, -⟩ := blanks?_eq_some_iff.mp hblanks
      obtain ⟨hflat, rfl⟩ := upToClosing?_eq_some_iff.mp hread
      exact ⟨hflat, gap, hgap, rfl⟩
    · cases hread
  · rintro ⟨hflat, gap, hgap, rfl⟩
    have hblanks := blanks?_mark hgap (by decide : isBlank '(' = false) (default ++ ')' :: after)
    simp only [default?, hblanks]
    exact upToClosing?_eq_some_iff.mpr ⟨hflat, rfl⟩

theorem opensHyphen_iff : OpensHyphen text after ↔ blanks? text = some ('-' :: after) := by
  have hmark : isBlank '-' = false := by decide
  constructor
  · rintro ⟨gap, hgap, rfl⟩
    exact blanks?_mark hgap hmark after
  · intro hread
    obtain ⟨gap, hgap, rfl, -⟩ := blanks?_eq_some_iff.mp hread
    exact ⟨gap, hgap, rfl⟩

theorem isDescribed_iff_of_dropsHyphen {description body : List Char} (hbody : DropsHyphen text body)
    (hunique : ∀ other, DropsHyphen text other → other = body) :
    IsDescribed text description ↔ unbroken? (dropBlanks body) = some description := by
  constructor
  · rintro ⟨lead, hdrops, hlead, hunindented, hunbroken⟩
    rw [← hunique _ hdrops, dropBlanks_append hlead hunindented]
    simp [unbroken?, hunbroken]
  · intro hread
    obtain ⟨rfl, hunbroken⟩ := unbroken?_eq_some hread
    refine ⟨body.takeWhile isBlank, ?_, fun c hc => List.mem_takeWhile_imp hc,
      isUnindented_dropBlanks body, hunbroken⟩
    rwa [dropBlanks, List.takeWhile_append_dropWhile]

theorem description?_eq_some_iff {description : List Char} :
    description? text = some description ↔ IsDescribed text description := by
  unfold description?
  split
  · rename_i body hread
    have hopens := opensHyphen_iff.mpr hread
    refine (isDescribed_iff_of_dropsHyphen (.written hopens) ?_).symm
    rintro other (hother | hother)
    · have hsame := (opensHyphen_iff.mp hother).symm.trans hread
      exact (List.cons.inj (Option.some.inj hsame)).2
    · exact absurd hopens (hother body)
  · rename_i hread
    have hopens : ∀ after, ¬ OpensHyphen text after :=
      fun after hopens => hread after (opensHyphen_iff.mp hopens)
    refine (isDescribed_iff_of_dropsHyphen (.missing hopens) ?_).symm
    rintro other (hother | -)
    · exact absurd hother (hopens other)
    · rfl

theorem parameterName?_eq_some_iff {written : List Char} :
    parameterName? text = some (written, after) ↔
      IsParameterName written ∧ text = written ++ after ∧
        ∀ c ∈ after.head?, isNameChar c = false := by
  constructor
  · intro hread
    unfold parameterName? at hread
    split at hread
    · simp only [Option.map_eq_some_iff, Prod.exists, Prod.mk.injEq] at hread
      obtain ⟨name, rest, hrun, rfl, rfl⟩ := hread
      obtain ⟨hne, hname, rfl, hstop⟩ := run?_eq_some_iff.mp hrun
      exact ⟨⟨name, ⟨hne, hname⟩, Or.inr rfl⟩, rfl, hstop⟩
    · obtain ⟨hne, hname, rfl, hstop⟩ := run?_eq_some_iff.mp hread
      exact ⟨⟨written, ⟨hne, hname⟩, Or.inl rfl⟩, rfl, hstop⟩
  · rintro ⟨⟨name, hname, hwritten⟩, rfl, hstop⟩
    exact parameterName?_append hname hwritten hstop

theorem IsParameterName.isUnindented {written : List Char} (hname : IsParameterName written)
    (rest : List Char) : IsUnindented (written ++ rest) := by
  obtain ⟨name, hname, hwritten⟩ := hname
  exact isBlank_head_of_isName hname hwritten rest

/-- The name of a tag takes an `s` along only in front of a gap. -/
theorem dropOptional_eq_append_iff {gap rest : List Char} (hgap : IsGap gap) :
    dropOptional 's' text = gap ++ rest ↔
      ∃ ending, IsPlural ending ∧ text = ending ++ (gap ++ rest) := by
  constructor
  · intro hdrop
    cases text with
    | nil => exact ⟨[], Or.inl rfl, hdrop⟩
    | cons c text =>
        simp only [dropOptional] at hdrop
        split at hdrop
        · subst c
          exact ⟨['s'], Or.inr rfl, congrArg ('s' :: ·) hdrop⟩
        · exact ⟨[], Or.inl rfl, hdrop⟩
  · rintro ⟨ending, rfl | rfl, rfl⟩
    · cases gap with
      | nil => exact absurd rfl hgap.nonempty
      | cons c gap =>
          have hc : c ≠ 's' := by
            rintro rfl
            exact absurd (hgap.blank 's' List.mem_cons_self) (by decide)
          exact if_neg hc
    · simp [dropOptional]

/-- Where a text does not end in a blank, words are what stands behind the gap. -/
theorem words?_eq_some_iff (htext : ∀ c ∈ text.getLast?, isBlank c = false) {words : List Char} :
    words? text = some words ↔ ∃ gap, IsGap gap ∧ text = gap ++ words ∧ IsPhrase words := by
  constructor
  · intro hread
    have hphrase := words?_eq_some hread
    have hblank : ∀ c ∈ text.takeWhile isBlank, isBlank c = true :=
      fun c hc => List.mem_takeWhile_imp hc
    unfold words? at hread
    split at hread
    · cases hread
    · rename_i hdrop hgap
      have hne : text ≠ [] := by
        rintro rfl
        exact hgap rfl
      have hlast := htext _ (List.getLast?_eq_some_getLast hne)
      rw [List.dropWhile_eq_nil_iff.mp hdrop _ (List.getLast_mem _)] at hlast
      cases hlast
    · rename_i hgap hdrop
      obtain ⟨rfl, -⟩ := unbroken?_eq_some hread
      exact ⟨_, ⟨hgap, hblank⟩, List.takeWhile_append_dropWhile.symm,
        ⟨⟨hphrase.1, hphrase.2⟩, isUnindented_dropBlanks text⟩⟩
  · rintro ⟨gap, hgap, rfl, hwords⟩
    have htake : (gap ++ words).takeWhile isBlank = gap :=
      takeWhile_append_of_stop hgap.blank hwords.unindented
    have hdrop : (gap ++ words).dropWhile isBlank = words :=
      dropWhile_append_of_stop hgap.blank hwords.unindented
    unfold words?
    rw [htake, hdrop]
    split
    · exact absurd rfl hgap.nonempty
    · exact absurd rfl hwords.nonempty
    · simp [unbroken?, hwords.unbroken]

theorem blankRun?_eq_some_iff {word : List Char} :
    run? (! isBlank ·) text = some (word, after) ↔
      IsSolid word ∧ text = word ++ after ∧ ∀ c ∈ after.head?, isBlank c = true := by
  rw [run?_eq_some_iff]
  constructor
  · rintro ⟨hne, hword, htext, hstop⟩
    exact ⟨⟨hne, by simpa using hword⟩, htext, by simpa using hstop⟩
  · rintro ⟨hword, htext, hstop⟩
    exact ⟨hword.nonempty, by simpa using hword.unparted, htext, by simpa using hstop⟩

theorem word?_eq_some_iff {word : List Char} :
    word? text = some word ↔
      ∃ gap rest, IsGap gap ∧ text = gap ++ (word ++ rest) ∧ IsSolid word ∧
        ∀ c ∈ rest.head?, isBlank c = true := by
  simp only [word?, Option.bind_eq_bind, Option.bind_eq_some_iff, Option.pure_def,
    Option.some.injEq, Prod.exists, blanks?_eq_some_iff, blankRun?_eq_some_iff]
  constructor
  · rintro ⟨_, ⟨gap, hgap, rfl, -⟩, _, rest, ⟨hword, rfl, hstop⟩, rfl⟩
    exact ⟨gap, rest, hgap, rfl, hword, hstop⟩
  · rintro ⟨gap, rest, hgap, rfl, hword, hstop⟩
    exact ⟨_, ⟨gap, hgap, rfl, hword.isUnindented rest⟩, _, rest, ⟨hword, rfl, hstop⟩, rfl⟩

end Tag

end StyleDoc
