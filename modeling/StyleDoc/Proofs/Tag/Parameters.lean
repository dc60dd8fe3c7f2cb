import StyleDoc.Proofs.Tag.Exclusion
import StyleDoc.Proofs.Tag.Parts

/-!
Which lines hold a parameter, and with which texts. A parameter line is put together from its parts;
each part is as long as it can be, so the line has them in one way only and nothing that was read
has to be given back: a line is a parameter line if and only if reading it from the left succeeds.
Any other line that begins with the name of the tag is description.
-/

namespace StyleDoc.Tag

open Text

/-- The lines that hold a parameter with the given texts: a type in braces, a name that goes on for
as long as it can, the default that may follow it, and a description. -/
def IsParameterLine (line : Line) (text : ParameterText) : Prop :=
  ∃ gap nameGap afterName after,
    line = "@param".toList ++ (gap ++ '{' :: (text.type ++ '}' ::
      (nameGap ++ (text.name ++ afterName)))) ∧
    IsGap gap ∧ '}' ∉ text.type ∧ IsGap nameGap ∧ IsParameterName text.name ∧
    (∀ c ∈ afterName.head?, isNameChar c = false) ∧
    TakesDefault afterName text.default after ∧ IsDescribed after text.description

theorem opensDefault_unique {text default other after rest : List Char}
    (hfirst : OpensDefault text default after) (hsecond : OpensDefault text other rest) :
    default = other ∧ after = rest := by
  have hread := default?_eq_some_iff.mpr hfirst
  rw [default?_eq_some_iff.mpr hsecond] at hread
  obtain ⟨rfl, rfl⟩ := Prod.mk.inj (Option.some.inj hread)
  exact ⟨rfl, rfl⟩

theorem isParameterLine_of_parameter? {line : Line} {text : ParameterText}
    (hread : parameter? line = some text) : IsParameterLine line text := by
  simp only [parameter?, Option.bind_eq_bind, Option.bind_eq_some_iff, Prod.exists] at hread
  obtain ⟨_, hnamed, _, hblanks, type, _, hbraced, _, hnameBlanks, name, afterName, hnameRead,
    hread⟩ := hread
  obtain rfl := literal?_eq_some_iff.mp hnamed
  obtain ⟨gap, hgap, rfl, -⟩ := blanks?_eq_some_iff.mp hblanks
  obtain ⟨htype, rfl⟩ := braced?_eq_some_iff.mp hbraced
  obtain ⟨nameGap, hnameGap, rfl, -⟩ := blanks?_eq_some_iff.mp hnameBlanks
  obtain ⟨hname, rfl, hstop⟩ := parameterName?_eq_some_iff.mp hnameRead
  split at hread
  · rename_i default after hdefault
    simp only [Option.bind_eq_some_iff, Option.pure_def, Option.some.injEq] at hread
    obtain ⟨description, hdescription, rfl⟩ := hread
    exact ⟨gap, nameGap, afterName, after, rfl, hgap, htype, hnameGap, hname, hstop,
      .written (default?_eq_some_iff.mp hdefault), description?_eq_some_iff.mp hdescription⟩
  · rename_i hdefault
    simp only [Option.bind_eq_some_iff, Option.pure_def, Option.some.injEq] at hread
    obtain ⟨description, hdescription, rfl⟩ := hread
    refine ⟨gap, nameGap, afterName, afterName, rfl, hgap, htype, hnameGap, hname, hstop,
      .missing fun default after hopens => ?_, description?_eq_some_iff.mp hdescription⟩
    rw [default?_eq_some_iff.mpr hopens] at hdefault
    cases hdefault

theorem IsParameterLine.parameter?_eq {line : Line} {text : ParameterText}
    (hline : IsParameterLine line text) : parameter? line = some text := by
  obtain ⟨type, name, default, description⟩ := text
  obtain ⟨gap, nameGap, afterName, after, rfl, hgap, htype, hnameGap, hname, hstop, hdefault,
    hdescription⟩ := hline
  have hnamed (rest : Line) : named? "@param" ("@param".toList ++ rest) = some rest :=
    literal?_eq_some_iff.mpr rfl
  have hblanks := blanks?_mark hgap (by decide : isBlank '{' = false)
    (type ++ '}' :: (nameGap ++ (name ++ afterName)))
  have hbraced := braced?_append (nameGap ++ (name ++ afterName)) htype
  have hnameBlanks := blanks?_append hnameGap (hname.isUnindented afterName)
  have hread := parameterName?_eq_some_iff.mpr ⟨hname, rfl, hstop⟩
  have hdescribed := description?_eq_some_iff.mpr hdescription
  simp only [parameter?, hnamed, hblanks, hbraced, hnameBlanks, hread, Option.bind_eq_bind,
    Option.bind_some]
  cases hdefault with
  | written hopens => simp [default?_eq_some_iff.mpr hopens, hdescribed]
  | missing hopens =>
      have hnone : default? afterName = none := Option.eq_none_iff_forall_ne_some.mpr
        fun found hfound => hopens found.1 found.2 (default?_eq_some_iff.mp hfound)
      simp [hnone, hdescribed]

/-- Reading from the left finds the parts of a parameter line, and nothing but its parts. -/
theorem parameter?_eq_some_iff {line : Line} {text : ParameterText} :
    parameter? line = some text ↔ IsParameterLine line text :=
  ⟨isParameterLine_of_parameter?, IsParameterLine.parameter?_eq⟩

theorem ofLine?_eq_parameter_iff {line : Line} {value : Parameter} :
    ofLine? line = some (.parameter value) ↔
      ∃ text, parameter? line = some text ∧ Parameter.ofText text = value := by
  rw [ofLine?_eq_some_iff_exists_form (by simp [field])]
  simp [forms]

/-- A line that begins with the name of the parameter tag can have no other form. -/
theorem ofLine?_of_not_parameter {line : Line} (hname : "@param".toList <+: line)
    (hnone : parameter? line = none) :
    ofLine? line = some (.description (String.ofList ('\n' :: line))) := by
  have hkept : isSkipped line = false := isSkipped_eq_false (by decide) hname
  have hforms : forms.findSome? (· line) = none := by
    rw [List.findSome?_eq_none_iff]
    obtain ⟨rest, rfl⟩ := hname
    simp only [String.reduceToList, List.cons_append, List.nil_append] at hnone ⊢
    simp [forms, hnone, return?, deprecated?, author?, access?, throws?, todo?, alias?, link?,
      named?, literal?]
  simp [ofLine?, hkept, hforms]

/-- The parameter tag accepts exactly the parameter lines, and the parts of such a line are unique.
A parameter line contributes its parameter, with the type and the default trimmed and a blank
default left out; any other line that begins with the name of the tag is description. -/
theorem accepts_parameter_lines (line : Line) :
    (∀ text, parameter? line = some text ↔ IsParameterLine line text) ∧
      (∀ text other, IsParameterLine line text → IsParameterLine line other → text = other) ∧
      (∀ front default other after rest, OpensDefault front default after →
        OpensDefault front other rest → default = other ∧ after = rest) ∧
      (∀ text, IsParameterLine line text →
        ∃ value, ofLine? line = some (.parameter value) ∧
          value.type.toList = trim text.type ∧ value.name.toList = text.name ∧
          value.default.map String.toList =
            (text.default.bind fun written =>
              if trim written = [] then none else some (trim written)) ∧
          value.description.toList = text.description) ∧
      ("@param".toList <+: line → (∀ text, ¬ IsParameterLine line text) →
        ofLine? line = some (.description (String.ofList ('\n' :: line)))) := by
  refine ⟨fun _ => parameter?_eq_some_iff, fun text other htext hother => ?_,
    fun _ _ _ _ _ => opensDefault_unique, fun text htext => ?_, fun hname hnone => ?_⟩
  · have hread := parameter?_eq_some_iff.mpr htext
    rw [parameter?_eq_some_iff.mpr hother] at hread
    exact (Option.some.inj hread).symm
  · refine ⟨Parameter.ofText text, ?_, ?_⟩
    · exact ofLine?_eq_parameter_iff.mpr ⟨text, parameter?_eq_some_iff.mpr htext, rfl⟩
    · cases hdefault : text.default with
      | none => simp [Parameter.ofText, hdefault]
      | some written =>
          by_cases hblank : trim written = [] <;> simp [Parameter.ofText, hdefault, hblank]
  · refine ofLine?_of_not_parameter hname (Option.eq_none_iff_forall_ne_some.mpr ?_)
    exact fun text hread => hnone text (parameter?_eq_some_iff.mp hread)

/-- A parameter with line feeds in its gaps and groups in its default; only the first of its two
hyphens introduces the description. -/
def spreadLine : Line :=
  "@param\n\x7bList|Map \x7d\t$x ( (a) b (c) ) -\n-1px".toList

def spreadText : ParameterText where
  type := "List|Map ".toList
  name := "$x".toList
  default := some " (a) b (c) ".toList
  description := "-1px".toList

/-- A parameter whose description goes on behind a line feed. -/
def brokenLine : Line :=
  "@param \x7bList\x7d $x (a) first\nsecond".toList

theorem accepts_parameter_lines_spread :
    (IsParameterLine spreadLine spreadText ∧
      ∃ value, ofLine? spreadLine = some (.parameter value) ∧
        value.type.toList = "List|Map".toList ∧ value.name.toList = "$x".toList ∧
        value.default.map String.toList = some "(a) b (c)".toList ∧
        value.description.toList = "-1px".toList) ∧
      (∀ text, ¬ IsParameterLine brokenLine text) ∧
      ofLine? brokenLine = some (.description (String.ofList ('\n' :: brokenLine))) := by
  obtain ⟨hspread, -, -, hvalue, -⟩ := accepts_parameter_lines spreadLine
  obtain ⟨hbroken, -, -, -, hdescription⟩ := accepts_parameter_lines brokenLine
  have htext : IsParameterLine spreadLine spreadText := (hspread spreadText).mp (by decide +kernel)
  have hnone : ∀ text, ¬ IsParameterLine brokenLine text := fun text htext => by
    have hread := (hbroken text).mpr htext
    rw [show parameter? brokenLine = none by decide +kernel] at hread
    cases hread
  refine ⟨⟨htext, ?_⟩, hnone, hdescription (by decide +kernel) hnone⟩
  obtain ⟨value, hread, htype, hname, hdefault, hdescription⟩ := hvalue spreadText htext
  exact ⟨value, hread, htype.trans (by decide +kernel), hname,
    hdefault.trans (by decide +kernel), hdescription⟩

end StyleDoc.Tag
