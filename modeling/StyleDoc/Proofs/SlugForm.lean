import StyleDoc.Proofs.Slugs
import StyleDoc.Proofs.Unicode.Lowered

/-!
Slugs as a normal form. A slug is made of lowered letters and digits, hyphens and underscores, and a
text of such characters is its own slug; so the slug of a slug is that slug, although what a capital
sigma becomes depends on characters around it that are lost on the way.
-/

namespace StyleDoc.Slug

/-- A text of characters that neither lower-casing nor cleaning has anything to do with. -/
def IsNormal (slug : List Char) : Prop :=
  ∀ c ∈ slug, isSlugChar c = true ∧ Unicode.IsLowered c

/-- A lower-case letter or a digit of ASCII, an underscore or a hyphen. -/
def isPlainChar (c : Char) : Bool :=
  ('a' ≤ c && c ≤ 'z') || ('0' ≤ c && c ≤ '9') || c == '_' || c == '-'

theorem isSlugChar_eq_true_iff {c : Char} :
    isSlugChar c = true ↔ Unicode.isAlphanumeric c = true ∨ c = '-' ∨ c = '_' := by
  simp [isSlugChar, or_assoc]

theorem isNormal_ofChars (text : List Char) : IsNormal (ofChars text) := by
  intro c hc
  refine ⟨isSlugChar_of_mem_ofChars hc, ?_⟩
  obtain ⟨d, hd, rfl⟩ := List.mem_map.mp hc
  split
  · have hhyphen : Unicode.IsLowered '-' := by decide +kernel
    exact hhyphen
  · exact Unicode.isLowered_of_mem_lowercaseAfter (List.mem_filter.mp hd).1

theorem ofChars_eq_self {slug : List Char} (hslug : IsNormal slug) : ofChars slug = slug := by
  have hlower : Unicode.lowercase slug = slug :=
    Unicode.lowercase_eq_self_iff.mpr fun c hc => (hslug c hc).2
  have hkept : slug.filter keeps = slug := by
    apply List.filter_eq_self.mpr
    intro c hc
    rcases isSlugChar_eq_true_iff.mp (hslug c hc).1 with hletter | rfl | rfl
    · simp [keeps, hletter]
    · simp [keeps]
    · simp [keeps]
  have hspace : isSlugChar ' ' = false := by decide +kernel
  have hunspaced : ∀ c ∈ slug, (if c = ' ' then '-' else c) = c := by
    intro c hc
    apply if_neg
    rintro rfl
    rw [(hslug ' ' hc).1] at hspace
    cases hspace
  calc ofChars slug = (slug.filter keeps).map fun c => if c = ' ' then '-' else c := by
        rw [ofChars, hlower]
    _ = slug.map fun c => if c = ' ' then '-' else c := by rw [hkept]
    _ = slug := (List.map_congr_left hunspaced).trans (List.map_id _)

theorem isNormal_of_isPlainChar {text : List Char} (htext : ∀ c ∈ text, isPlainChar c = true) :
    IsNormal text := by
  have hplain : ∀ c : Char, c.toNat < 128 →
      isPlainChar c = true → isSlugChar c = true ∧ Unicode.IsLowered c :=
    Unicode.forall_ascii (by decide +kernel)
  intro c hc
  refine hplain c ?_ (htext c hc)
  have hrange := htext c hc
  simp only [isPlainChar, Bool.or_eq_true, Bool.and_eq_true, decide_eq_true_eq, beq_iff_eq,
    Char.le_def, UInt32.le_iff_toNat_le] at hrange
  rcases hrange with ((hletter | hdigit) | rfl) | rfl
  · exact lt_of_le_of_lt hletter.2 (by decide)
  · exact lt_of_le_of_lt hdigit.2 (by decide)
  · decide
  · decide

/-- A slug is its own slug. It holds letters and digits, hyphens and underscores only, and
lower-casing changes none of its characters, neither by itself nor where it stands; and such texts
are the only ones that are their own slugs. Lower-case letters, digits, hyphens and underscores of
ASCII are among them. -/
theorem ofText_normal (text : String) :
    ofText (ofText text) = ofText text ∧
      (∀ c ∈ (ofText text).toList,
        (Unicode.isAlphanumeric c = true ∨ c = '-' ∨ c = '_') ∧ Unicode.lowercase [c] = [c]) ∧
      Unicode.lowercase (ofText text).toList = (ofText text).toList ∧
      (ofText text = text ↔ ∀ c ∈ text.toList,
        (Unicode.isAlphanumeric c = true ∨ c = '-' ∨ c = '_') ∧ Unicode.lowercase [c] = [c]) ∧
      ((∀ c ∈ text.toList, isPlainChar c = true) → ofText text = text) := by
  have hnormal : IsNormal (ofText text).toList := by
    rw [ofText, String.toList_ofList]
    exact isNormal_ofChars text.toList
  have hself {slug : String} (hslug : IsNormal slug.toList) : ofText slug = slug := by
    rw [ofText, ofChars_eq_self hslug, String.ofList_toList]
  simp only [← isSlugChar_eq_true_iff]
  refine ⟨hself hnormal, hnormal, ?_, ⟨fun hslug => ?_, hself⟩, fun hplain => ?_⟩
  · exact Unicode.lowercase_eq_self_iff.mpr fun c hc => (hnormal c hc).2
  · rw [hslug] at hnormal
    exact hnormal
  · exact hself (isNormal_of_isPlainChar hplain)

/-- A sigma that is final because of a mark that is lost, a letter whose lower form loses its dot,
and a name that is a slug already. -/
theorem ofText_normal_sigma :
    ofText "ΟΔΟΣ!Α İ" = "οδοςα-i" ∧ ofText "οδοςα-i" = "οδοςα-i" ∧
      (∀ c ∈ "grid_12-col".toList, isPlainChar c = true) ∧ ofText "grid_12-col" = "grid_12-col" := by
  have hslug : ofText "ΟΔΟΣ!Α İ" = "οδοςα-i" := by decide +kernel
  have hplain : ∀ c ∈ "grid_12-col".toList, isPlainChar c = true := by
    apply List.all_eq_true.mp
    decide
  obtain ⟨hagain, -⟩ := ofText_normal "ΟΔΟΣ!Α İ"
  obtain ⟨-, -, -, -, hname⟩ := ofText_normal "grid_12-col"
  rw [hslug] at hagain
  exact ⟨hslug, hagain, hplain, hname hplain⟩

end StyleDoc.Slug
