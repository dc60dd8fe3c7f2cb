import StyleDoc.Proofs.Tag.Forms

/-!
The description at the end of a return or a parameter. A hyphen in front of it may set it off from
what stands before, and a hyphen is taken for that mark wherever a gap leads to it, whether or not
another gap follows. A description without a hyphen in front of it is kept as it is written, but one
that begins with a negative number loses the sign.
-/

namespace StyleDoc.Tag

open Text

/-- A text without the hyphen that it may begin with, and without the blanks behind that hyphen. -/
def unhyphened (text : List Char) : List Char :=
  match text with
  | '-' :: rest => dropBlanks rest
  | _ => text

theorem unhyphened_of_head {text : List Char} (hhead : text.head? ≠ some '-') :
    unhyphened text = text := by
  cases text with
  | nil => rfl
  | cons c rest =>
      have hc : c ≠ '-' := by simpa using hhead
      simp [unhyphened, hc]

theorem unhyphened_suffix (text : List Char) : unhyphened text <:+ text := by
  unfold unhyphened
  split
  · exact (dropBlanks_suffix _).trans (List.suffix_cons _ _)
  · exact List.suffix_refl _

theorem unhyphened_eq_self_iff {text : List Char} :
    unhyphened text = text ↔ text.head? ≠ some '-' := by
  refine ⟨fun hself hhead => ?_, unhyphened_of_head⟩
  obtain ⟨rest, rfl⟩ := List.head?_eq_some_iff.mp hhead
  have hshort : (unhyphened ('-' :: rest)).length < ('-' :: rest).length :=
    Nat.lt_succ_of_le (dropBlanks_suffix rest).length_le
  rw [hself] at hshort
  exact lt_irrefl _ hshort

theorem description?_space {text : List Char} (htext : IsPhrase text) :
    description? (' ' :: text) = some (unhyphened text) := by
  have hunbroken : '\n' ∉ unhyphened text := fun hmem =>
    htext.unbroken ((unhyphened_suffix text).subset hmem)
  by_cases hhead : text.head? = some '-'
  · obtain ⟨rest, rfl⟩ := List.head?_eq_some_iff.mp hhead
    have hblanks := blanks?_space htext.unindented
    simp only [description?, hblanks]
    simpa [unbroken?, unhyphened] using hunbroken
  · rw [unhyphened_of_head hhead] at hunbroken ⊢
    have hnone : ∀ after, ¬ OpensHyphen (' ' :: text) after := fun after hopens => by
      have hread := (blanks?_space htext.unindented).symm.trans (opensHyphen_iff.mp hopens)
      exact hhead (by rw [Option.some.inj hread, List.head?_cons])
    exact description?_eq_some_iff.mpr
      ⟨[' '], .missing hnone, by simp [isBlank], htext.unindented, hunbroken⟩

theorem default?_space {text : List Char} (htext : IsPhrase text) (hhead : text.head? ≠ some '(') :
    default? (' ' :: text) = none := by
  unfold default?
  rw [blanks?_space htext.unindented]
  split
  · rename_i body heq
    rw [Option.some.inj heq] at hhead
    exact absurd rfl hhead
  · rfl

theorem ofLine?_eq_returns_iff {line : Line} {value : Return} :
    ofLine? line = some (.returns value) ↔
      ∃ types description, return? line = some (types, description) ∧
        Return.ofText types description = value := by
  rw [ofLine?_eq_some_iff_exists_form (by simp [field])]
  simp [forms]

theorem return?_space {types text : List Char} (htypes : '}' ∉ types) (htext : IsPhrase text) :
    return? ("@return ".toList ++ '{' :: (types ++ '}' :: ' ' :: text)) =
      some (types, unhyphened text) := by
  have hdescribed := description?_eq_some_iff.mp (description?_space htext)
  have hgap : IsGap [' '] := by decide
  exact return?_eq_some_iff.mpr
    ⟨[], [' '], ' ' :: text, Or.inl rfl, hgap, htypes, hdescribed, rfl⟩

theorem parameter?_space {type name text : List Char} (htype : '}' ∉ type)
    (hname : IsParameterName name) (htext : IsPhrase text) (hhead : text.head? ≠ some '(') :
    parameter? ("@param ".toList ++ '{' :: (type ++ '}' :: ' ' :: (name ++ ' ' :: text))) =
      some { type, name, default := none, description := unhyphened text } := by
  have hdescribed := description?_eq_some_iff.mp (description?_space htext)
  have hgap : IsGap [' '] := by decide
  have hnone : ∀ default after, ¬ OpensDefault (' ' :: text) default after := by
    intro default after hopens
    have hread := default?_eq_some_iff.mpr hopens
    rw [default?_space htext hhead] at hread
    cases hread
  exact parameter?_eq_some_iff.mpr ⟨[' '], [' '], ' ' :: text, ' ' :: text, rfl, hgap, htype, hgap,
    hname, by simp [isNameChar], .missing hnone, hdescribed⟩

/-- A phrase behind the braces of a return, or behind the name of a parameter, becomes its
description, and unless it begins with a hyphen it does so as it stands. A hyphen at its start is
lost even where a number or a word goes on behind it. -/
theorem ofLine?_behind_braces {types text : List Char} (htypes : '}' ∉ types)
    (htext : IsPhrase text) :
    (unhyphened text = text ↔ text.head? ≠ some '-') ∧
      (∀ rest, text = '-' :: rest → IsUnindented rest → unhyphened text = rest) ∧
      ofLine? ("@return ".toList ++ '{' :: (types ++ '}' :: ' ' :: text)) =
        some (.returns
          { types := some ((types.splitOn '|').map fun type => String.ofList (trim type))
            description := some (String.ofList (unhyphened text)) }) ∧
      ∀ name, IsParameterName name → text.head? ≠ some '(' →
        ofLine? ("@param ".toList ++ '{' :: (types ++ '}' :: ' ' :: (name ++ ' ' :: text))) =
          some (.parameter
            { type := String.ofList (trim types)
              name := String.ofList name
              default := none
              description := String.ofList (unhyphened text) }) := by
  refine ⟨unhyphened_eq_self_iff, ?_, ?_, fun name hname hhead => ?_⟩
  · rintro rest rfl hrest
    exact dropBlanks_of_head hrest
  · exact ofLine?_eq_returns_iff.mpr ⟨_, _, return?_space htypes htext, rfl⟩
  · exact ofLine?_eq_parameter_iff.mpr ⟨_, parameter?_space htypes hname htext hhead, rfl⟩

/-- A text that comes to a parenthesis and to hyphens only later on is kept. -/
theorem ofLine?_behind_braces_kept :
    (('}' ∉ "Number | Null".toList ∧ IsPhrase "sum (-1px - 2px)".toList) ∧
      ofLine? "@return \x7bNumber | Null\x7d sum (-1px - 2px)".toList =
        some (.returns
          { types := some ["Number", "Null"], description := some "sum (-1px - 2px)" })) ∧
    (IsParameterName "$gap-x".toList ∧ "sum (-1px - 2px)".toList.head? ≠ some '(' ∧
      ofLine? "@param \x7bNumber | Null\x7d $gap-x sum (-1px - 2px)".toList =
        some (.parameter
          { type := "Number | Null", name := "$gap-x", default := none
            description := "sum (-1px - 2px)" })) := by
  have htypes : '}' ∉ "Number | Null".toList := by decide +kernel
  have htext : IsPhrase "sum (-1px - 2px)".toList :=
    ⟨⟨List.cons_ne_nil _ _, by decide +kernel⟩, by decide +kernel⟩
  have hname : IsParameterName "$gap-x".toList := ⟨"gap-x".toList, by decide +kernel, Or.inr rfl⟩
  obtain ⟨-, -, hreturn, hparameter⟩ := ofLine?_behind_braces htypes htext
  refine ⟨⟨⟨htypes, htext⟩, ?_⟩, hname, by decide +kernel, ?_⟩
  · exact hreturn.trans (by decide +kernel)
  · exact (hparameter _ hname (by decide +kernel)).trans (by decide +kernel)

/-- A negative number with no gap behind its sign, which comes back positive. -/
theorem ofLine?_behind_braces_negative :
    ('}' ∉ "Number".toList ∧ IsRemark "-1".toList ∧ IsTrimmed "-1".toList ∧
        ∀ rest, "-1".toList = '-' :: rest → rest ≠ [] ∧ ∀ c ∈ rest.head?, isSpace c = false) ∧
      ofLine? "@return \x7bNumber\x7d -1".toList =
        some (.returns { types := some ["Number"], description := some "1" }) ∧
      ofLine? "@param \x7bNumber\x7d $x -1".toList =
        some (.parameter
          { type := "Number", name := "$x", default := none, description := "1" }) := by
  have hremark : IsRemark "-1".toList := ⟨List.cons_ne_nil _ _, by decide +kernel⟩
  refine ⟨⟨by decide +kernel, hremark, by decide +kernel, ?_⟩, by decide +kernel, by decide +kernel⟩
  intro rest hrest
  obtain rfl : ['1'] = rest := (List.cons.inj hrest).2
  exact ⟨List.cons_ne_nil _ _, by simp [isSpace, isBlank]⟩

end StyleDoc.Tag
