import Mathlib.Computability.Language
import StyleDoc.Proofs.Tag.Forms

/-!
Which lines contribute nothing: empty ones, rules, and lines that ask to be left out. A rule is
drawn with marks and blanks, and it takes nothing but counting the marks to tell that a line is one:
the pattern of a rule, in which every mark takes the blanks behind it along, holds the same lines.
A line asks to be left out with a whole word, so a longer word does not. Every other line contributes
one tag, which is description if the line has no form.
-/

namespace StyleDoc.Tag

open Text
open scoped Computability

/-- The marks that rules are drawn with. -/
def isRuleMark (c : Char) : Bool :=
  "-=*#~_/".toList.contains c

/-- A line of marks and blanks with at least three marks. -/
structure IsRule (line : Line) : Prop where
  plain : ∀ c ∈ line, isRuleMark c = true ∨ isBlank c = true
  marks : 3 ≤ line.countP isRuleMark

/-- A line that begins with the word that leaves it out. -/
def IsOmission (line : Line) : Prop :=
  ∃ rest, line = "@ignore".toList ++ rest ∧ ∀ c ∈ rest.head?, Unicode.isWordChar c = false

/-- The texts of one character of a class. -/
def oneOf (accepts : Char → Bool) : Language Char :=
  {text | ∃ c, accepts c = true ∧ text = [c]}

/-- A mark with the blanks behind it. -/
def markPattern : Language Char :=
  oneOf isRuleMark * (oneOf isBlank)∗

/-- Blanks, and behind them three or more marks with blanks of their own. -/
def rulePattern : Language Char :=
  (oneOf isBlank)∗ * (markPattern ^ 3 * markPattern∗)

/-- Whether a word ends or begins between two parts of a text. -/
def IsWordBoundary (front rest : List Char) : Prop :=
  front.getLast?.any Unicode.isWordChar ≠ rest.head?.any Unicode.isWordChar

theorem mem_oneOf {accepts : Char → Bool} {text : List Char} :
    text ∈ oneOf accepts ↔ ∃ c, accepts c = true ∧ text = [c] :=
  Iff.rfl

theorem mem_kstar_oneOf {accepts : Char → Bool} {text : List Char} :
    text ∈ (oneOf accepts)∗ ↔ ∀ c ∈ text, accepts c = true := by
  constructor
  · intro htext
    obtain ⟨pieces, rfl, hpieces⟩ := Language.mem_kstar.mp htext
    intro c hc
    obtain ⟨piece, hpiece, hmem⟩ := List.mem_flatten.mp hc
    obtain ⟨d, hd, rfl⟩ := mem_oneOf.mp (hpieces piece hpiece)
    rwa [List.mem_singleton.mp hmem]
  · intro htext
    refine Language.mem_kstar.mpr ⟨text.map fun c => [c], (List.flatMap_singleton' text).symm, ?_⟩
    intro piece hpiece
    obtain ⟨c, hc, rfl⟩ := List.mem_map.mp hpiece
    exact mem_oneOf.mpr ⟨c, htext c hc, rfl⟩

theorem isRuleMark_eq_false_of_isBlank {c : Char} (hc : isBlank c = true) :
    isRuleMark c = false := by
  have hmarks : ("-=*#~_/".toList.all fun mark => !isBlank mark) = true := by decide
  refine Bool.eq_false_iff.mpr fun hmark => ?_
  have hblank := List.all_eq_true.mp hmarks c (List.contains_iff_mem.mp hmark)
  rw [hc] at hblank
  cases hblank

theorem isRuleMark_or_isBlank_of_mem_pow {count : Nat} {text : List Char}
    (htext : text ∈ markPattern ^ count) :
    (∀ c ∈ text, isRuleMark c = true ∨ isBlank c = true) ∧ text.countP isRuleMark = count := by
  induction count generalizing text with
  | zero =>
      rw [pow_zero, Language.mem_one] at htext
      simp [htext]
  | succ count ih =>
      rw [pow_succ'] at htext
      obtain ⟨marked, hmarked, rest, hrest, rfl⟩ := Language.mem_mul.mp htext
      obtain ⟨_, hfirst, blanks, hblanks, rfl⟩ := Language.mem_mul.mp hmarked
      obtain ⟨mark, hmark, rfl⟩ := mem_oneOf.mp hfirst
      rw [mem_kstar_oneOf] at hblanks
      obtain ⟨hplain, hcount⟩ := ih hrest
      have hnone : blanks.countP isRuleMark = 0 := List.countP_eq_zero.mpr fun c hc => by
        simp [isRuleMark_eq_false_of_isBlank (hblanks c hc)]
      constructor
      · intro c hc
        simp only [List.mem_append, List.mem_singleton] at hc
        rcases hc with (rfl | hblank) | hlater
        · exact Or.inl hmark
        · exact Or.inr (hblanks c hblank)
        · exact hplain c hlater
      · rw [List.countP_append, List.countP_append, List.countP_singleton, if_pos hmark, hnone,
          hcount]
        omega

/-- Marks and blanks are parted in one way: every mark takes the blanks behind it along. -/
theorem mem_kstar_mul_pow_iff {count : Nat} {text : List Char} :
    text ∈ (oneOf isBlank)∗ * markPattern ^ count ↔
      (∀ c ∈ text, isRuleMark c = true ∨ isBlank c = true) ∧ text.countP isRuleMark = count := by
  constructor
  · intro htext
    obtain ⟨lead, hlead, marked, hmarked, rfl⟩ := Language.mem_mul.mp htext
    rw [mem_kstar_oneOf] at hlead
    obtain ⟨hplain, hcount⟩ := isRuleMark_or_isBlank_of_mem_pow hmarked
    have hnone : lead.countP isRuleMark = 0 := List.countP_eq_zero.mpr fun c hc => by
      simp [isRuleMark_eq_false_of_isBlank (hlead c hc)]
    refine ⟨List.forall_mem_append.mpr ⟨fun c hc => Or.inr (hlead c hc), hplain⟩, ?_⟩
    rw [List.countP_append, hnone, hcount, Nat.zero_add]
  · rintro ⟨hplain, rfl⟩
    induction text with
    | nil => exact Language.mem_mul.mpr ⟨[], Language.nil_mem_kstar _, [], by simp, rfl⟩
    | cons c text ih =>
        obtain ⟨hc, hrest⟩ := List.forall_mem_cons.mp hplain
        obtain ⟨lead, hlead, marked, hmarked, rfl⟩ := Language.mem_mul.mp (ih hrest)
        rcases hc with hmark | hblank
        · have hfirst : c :: lead ∈ markPattern :=
            Language.mem_mul.mpr ⟨[c], mem_oneOf.mpr ⟨c, hmark, rfl⟩, lead, hlead, rfl⟩
          rw [List.countP_cons_of_pos hmark, pow_succ']
          exact Language.mem_mul.mpr ⟨[], Language.nil_mem_kstar _, _,
            Language.mem_mul.mpr ⟨_, hfirst, marked, hmarked, rfl⟩, rfl⟩
        · have hnot : ¬ isRuleMark c = true := by simp [isRuleMark_eq_false_of_isBlank hblank]
          rw [List.countP_cons_of_neg hnot]
          refine Language.mem_mul.mpr ⟨c :: lead, ?_, marked, hmarked, rfl⟩
          rw [mem_kstar_oneOf] at hlead ⊢
          exact List.forall_mem_cons.mpr ⟨hblank, hlead⟩

/-- The pattern of a rule asks for nothing but marks and blanks, and for three marks. -/
theorem mem_rulePattern_iff {line : Line} : line ∈ rulePattern ↔ IsRule line := by
  have hpattern : rulePattern = ⨆ more, (oneOf isBlank)∗ * markPattern ^ (3 + more) := by
    simp only [rulePattern, Language.kstar_eq_iSup_pow markPattern, Language.mul_iSup, pow_add]
  simp only [hpattern, Language.mem_iSup, mem_kstar_mul_pow_iff]
  constructor
  · rintro ⟨more, hplain, hcount⟩
    exact ⟨hplain, by omega⟩
  · rintro ⟨hplain, hmarks⟩
    exact ⟨line.countP isRuleMark - 3, hplain, by omega⟩

theorem isRule_eq_true_iff {line : Line} : isRule line = true ↔ IsRule line := by
  have hread : isRule line =
      (line.all (fun c => isBlank c || isRuleMark c) && decide (3 ≤ line.countP isRuleMark)) := rfl
  rw [hread, Bool.and_eq_true, List.all_eq_true, decide_eq_true_eq]
  constructor
  · rintro ⟨hplain, hmarks⟩
    exact ⟨fun c hc => (Bool.or_eq_true_iff.mp (hplain c hc)).symm, hmarks⟩
  · rintro ⟨hplain, hmarks⟩
    exact ⟨fun c hc => Bool.or_eq_true_iff.mpr (hplain c hc).symm, hmarks⟩

theorem isOmitted_eq_true_iff {line : Line} : isOmitted line = true ↔ IsOmission line := by
  constructor
  · intro homitted
    unfold isOmitted at homitted
    split at homitted
    · rename_i hnamed
      exact ⟨[], named?_eq_some_iff.mp hnamed, by simp⟩
    · rename_i c rest hnamed
      exact ⟨c :: rest, named?_eq_some_iff.mp hnamed, by simpa using homitted⟩
    · cases homitted
  · rintro ⟨rest, hline, hstop⟩
    rw [isOmitted, named?_eq_some_iff.mpr hline]
    cases rest with
    | nil => rfl
    | cons c rest => simpa using hstop

theorem isOmission_iff_isWordBoundary {line : Line} :
    IsOmission line ↔
      ∃ rest, line = "@ignore".toList ++ rest ∧ IsWordBoundary "@ignore".toList rest := by
  have hlast : ("@ignore".toList.getLast?.any Unicode.isWordChar) = true := by decide +kernel
  refine exists_congr fun rest => and_congr_right fun _ => ?_
  rw [IsWordBoundary, hlast]
  cases rest <;> simp

theorem isSkipped_eq_true_iff {line : Line} :
    isSkipped line = true ↔ line = [] ∨ IsRule line ∨ IsOmission line := by
  rw [isSkipped, Bool.or_eq_true, Bool.or_eq_true, List.isEmpty_iff, isRule_eq_true_iff,
    isOmitted_eq_true_iff, or_assoc]

theorem ofLine?_of_forms_none {line : Line} (hkept : ¬ isSkipped line = true)
    (hnone : ∀ form ∈ forms, form line = none) :
    ofLine? line = some (.description (String.ofList ('\n' :: line))) := by
  have hforms : forms.findSome? (· line) = none := List.findSome?_eq_none_iff.mpr hnone
  rw [ofLine?, if_neg hkept, hforms]

theorem ofLine?_of_form {line : Line} {form : Line → Option Tag} (hform : form ∈ forms) {tag : Tag}
    (hread : form line = some tag) : ofLine? line = some tag := by
  apply (ofLine?_eq_some_iff_exists_form ?_).mpr
  · exact ⟨form, hform, hread⟩
  · exact field_ne_description_of_mem_forms hform hread

theorem exists_ofLine? {line : Line} (hkept : ¬ isSkipped line = true) :
    ∃ tag, ofLine? line = some tag := by
  by_cases hnone : ∀ form ∈ forms, form line = none
  · exact ⟨_, ofLine?_of_forms_none hkept hnone⟩
  · push Not at hnone
    obtain ⟨form, hform, hread⟩ := hnone
    obtain ⟨tag, htag⟩ := Option.ne_none_iff_exists'.mp hread
    exact ⟨tag, ofLine?_of_form hform htag⟩

/-- A line contributes nothing if it is empty, if it is made of marks and blanks with at least three
marks, or if it begins with the word that leaves it out and no character of a word follows; these
are the empty line, the lines of the pattern of a rule and those in which a word ends behind the
one that leaves them out. Every other line contributes exactly one tag. That is the tag of the form
which the line has, and without a form it is the line as it stands, set off by a line feed. -/
theorem ofLine?_eq_none_iff (line : Line) :
    (ofLine? line = none ↔ line = [] ∨ IsRule line ∨ IsOmission line) ∧
      (IsRule line ↔ line ∈ rulePattern) ∧
      (IsOmission line ↔
        ∃ rest, line = "@ignore".toList ++ rest ∧ IsWordBoundary "@ignore".toList rest) ∧
      (¬ (line = [] ∨ IsRule line ∨ IsOmission line) →
        (∃! tag, ofLine? line = some tag) ∧
          ((∀ form ∈ forms, form line = none) →
            ofLine? line = some (.description (String.ofList ('\n' :: line))))) ∧
      ∀ form ∈ forms, ∀ tag, form line = some tag → ofLine? line = some tag := by
  rw [← isSkipped_eq_true_iff]
  refine ⟨⟨fun hnone => ?_, fun hskipped => ?_⟩, mem_rulePattern_iff.symm,
    isOmission_iff_isWordBoundary, fun hkept => ⟨?_, ofLine?_of_forms_none hkept⟩,
    fun form hform tag => ofLine?_of_form hform⟩
  · by_contra hkept
    obtain ⟨tag, htag⟩ := exists_ofLine? hkept
    rw [hnone] at htag
    cases htag
  · rw [ofLine?, if_pos hskipped]
  · obtain ⟨tag, htag⟩ := exists_ofLine? hkept
    refine ⟨tag, htag, fun other hother => ?_⟩
    exact Option.some.inj (hother.symm.trans htag)

/-- Three marks among blanks that are not all spaces are a rule and two are text; an accent makes
another word of the one that leaves a line out, and a hyphen does not. -/
theorem ofLine?_eq_none_iff_edges :
    ofLine? "\t/\n- \u000b~".toList = none ∧
      (¬ ("- -".toList = [] ∨ IsRule "- -".toList ∨ IsOmission "- -".toList) ∧
        (∀ form ∈ forms, form "- -".toList = none) ∧
        ofLine? "- -".toList = some (.description "\n- -")) ∧
      ofLine? "@ignore-all".toList = none ∧
      ofLine? "@ignoreé".toList = some (.description "\n@ignoreé") := by
  obtain ⟨hrule, -⟩ := ofLine?_eq_none_iff "\t/\n- \u000b~".toList
  obtain ⟨-, -, -, hpair, -⟩ := ofLine?_eq_none_iff "- -".toList
  obtain ⟨hword, -⟩ := ofLine?_eq_none_iff "@ignore-all".toList
  obtain ⟨-, -, -, haccent, -⟩ := ofLine?_eq_none_iff "@ignoreé".toList
  have hkept : ¬ ("- -".toList = [] ∨ IsRule "- -".toList ∨ IsOmission "- -".toList) := by
    rw [← isSkipped_eq_true_iff]
    decide +kernel
  have hlonger : ¬ ("@ignoreé".toList = [] ∨ IsRule "@ignoreé".toList ∨
      IsOmission "@ignoreé".toList) := by
    rw [← isSkipped_eq_true_iff]
    decide +kernel
  have hnone : ∀ form ∈ forms, form "- -".toList = none := by decide +kernel
  refine ⟨hrule.mpr (Or.inr (Or.inl ?_)), ⟨hkept, hnone, (hpair hkept).2 hnone⟩,
    hword.mpr (Or.inr (Or.inr ?_)), (haccent hlonger).2 (by decide +kernel)⟩
  · apply isRule_eq_true_iff.mp
    decide +kernel
  · apply isOmitted_eq_true_iff.mp
    decide +kernel

end StyleDoc.Tag
