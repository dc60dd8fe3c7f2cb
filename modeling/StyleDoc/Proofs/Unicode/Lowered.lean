import StyleDoc.Unicode.Lowercase

/-!
Characters that lower-casing leaves alone. Everything it puts out is of that kind: the lower forms
of one range of capitals miss the capitals of every range, which is checked range against range and
not one character at a time. So a lowered text has no capital sigma left whose form could depend on
what stands around it, and any choice of characters from lowered texts is lowered already.
-/

namespace StyleDoc.Unicode

namespace CaseRange

/-- Whether the lower forms of one range lie below the capitals of another, above them, or in the
gaps between them. -/
def misses (range other : CaseRange) : Bool :=
  (range.lower + (range.last - range.first)).blt other.first || other.last.blt range.lower ||
    (range.step == 2 || range.first == range.last) && other.step == 2 &&
      (range.lower + other.first) % 2 == 1

theorem lower?_eq_some_iff {range : CaseRange} {n m : Nat} :
    range.lower? n = some m ↔
      range.first ≤ n ∧ n ≤ range.last ∧ (n - range.first) % range.step = 0 ∧
        m = range.lower + (n - range.first) := by
  rw [lower?, Option.ite_none_right_eq_some, Bool.and_eq_true, Bool.and_eq_true, decide_eq_true_eq,
    decide_eq_true_eq, beq_iff_eq, Option.some.injEq, and_assoc, and_assoc,
    eq_comm (a := range.lower + (n - range.first))]

theorem lower?_eq_none_of_misses {range other : CaseRange} (hmisses : range.misses other = true)
    {n m : Nat} (hlower : range.lower? n = some m) : other.lower? m = none := by
  obtain ⟨hfirst, hlast, hstep, rfl⟩ := lower?_eq_some_iff.mp hlower
  apply Option.eq_none_iff_forall_ne_some.mpr
  intro again hagain
  obtain ⟨hbelow, habove, hcapital, -⟩ := lower?_eq_some_iff.mp hagain
  simp only [misses, Bool.or_eq_true, Bool.and_eq_true, Nat.blt_eq, beq_iff_eq] at hmisses
  rcases hmisses with (hunder | hover) | ⟨⟨hgaps, htwo⟩, hodd⟩
  · omega
  · omega
  · rw [htwo] at hcapital
    rcases hgaps with hgaps | hsingle
    · rw [hgaps] at hstep
      omega
    · omega

end CaseRange

/-- The capital whose lower form has two characters, as a range by itself. -/
def dottedRange : CaseRange :=
  ⟨0x130, 0x130, 1, 0x130⟩

theorem caseRanges_miss :
    caseRanges.all (fun range => (dottedRange :: caseRanges).all range.misses) = true := by
  decide +kernel

/-- A character that lower-casing leaves alone. -/
def IsLowered (c : Char) : Prop :=
  lowercase [c] = [c]

instance (c : Char) : Decidable (IsLowered c) :=
  inferInstanceAs (Decidable (_ = _))

theorem isLowered_iff {c : Char} : IsLowered c ↔ lowerChar c = [c] := by
  by_cases hsigma : c = 'Σ'
  · subst hsigma
    decide +kernel
  · simp [IsLowered, lowercase, lowercaseAfter, hsigma]

/-- A code point that is no capital stands for a character without a lower form of its own. -/
theorem isLowered_ofNat {n : Nat} (hn : ∀ range ∈ dottedRange :: caseRanges, range.lower? n = none) :
    IsLowered (Char.ofNat n) := by
  obtain ⟨hdotted, hranges⟩ := List.forall_mem_cons.mp hn
  rw [isLowered_iff]
  by_cases hvalid : n.isValidChar
  · have hcode : (Char.ofNat n).toNat = n := by
      rw [Char.ofNat, dif_pos hvalid]
      rfl
    have hnot : n ≠ 0x130 := by
      rintro rfl
      cases hdotted
    have hnone : caseRanges.findSome? (CaseRange.lower? · n) = none :=
      List.findSome?_eq_none_iff.mpr hranges
    rw [lowerChar, hcode, hnone]
    simp [hnot]
  · have hzero : Char.ofNat n = Char.ofNat 0 := by
      rw [Char.ofNat, dif_neg hvalid]
      rfl
    rw [hzero]
    decide +kernel

theorem isLowered_of_mem_lowerChar {c d : Char} (hd : d ∈ lowerChar c) : IsLowered d := by
  unfold lowerChar at hd
  split at hd
  · have hletter : IsLowered 'i' := by decide +kernel
    have hdot : IsLowered '\u0307' := by decide +kernel
    simp only [List.mem_cons, List.not_mem_nil, or_false] at hd
    rcases hd with rfl | rfl
    · exact hletter
    · exact hdot
  · rename_i hplain
    split at hd
    · rename_i n hfound
      obtain rfl := List.mem_singleton.mp hd
      obtain ⟨range, hrange, hlower⟩ := List.exists_of_findSome?_eq_some hfound
      have hmisses := List.all_eq_true.mp caseRanges_miss range hrange
      apply isLowered_ofNat
      intro other hother
      exact CaseRange.lower?_eq_none_of_misses (List.all_eq_true.mp hmisses other hother) hlower
    · rename_i hnone
      obtain rfl := List.mem_singleton.mp hd
      rw [isLowered_iff, lowerChar, hnone, if_neg hplain]

/-- Lower-casing puts out nothing that it would change. -/
theorem isLowered_of_mem_lowercaseAfter {before text : List Char} {d : Char}
    (hd : d ∈ lowercaseAfter before text) : IsLowered d := by
  induction text generalizing before with
  | nil => cases hd
  | cons c text ih =>
      rw [lowercaseAfter, List.mem_append] at hd
      rcases hd with hfirst | hlater
      · split at hfirst
        · have hsigmas : IsLowered 'ς' ∧ IsLowered 'σ' := by decide +kernel
          split at hfirst
          · rw [List.mem_singleton.mp hfirst]
            exact hsigmas.1
          · rw [List.mem_singleton.mp hfirst]
            exact hsigmas.2
        · exact isLowered_of_mem_lowerChar hfirst
      · exact ih hlater

/-- A text of lowered characters is left alone, whatever stands in front of it. -/
theorem lowercaseAfter_eq_self {text : List Char} (htext : ∀ c ∈ text, IsLowered c)
    (before : List Char) : lowercaseAfter before text = text := by
  induction text generalizing before with
  | nil => rfl
  | cons c text ih =>
      obtain ⟨hc, htext⟩ := List.forall_mem_cons.mp htext
      have hsigma : c ≠ 'Σ' := by
        rintro rfl
        revert hc
        decide +kernel
      rw [lowercaseAfter, if_neg hsigma, isLowered_iff.mp hc, ih htext, List.singleton_append]

/-- The texts that lower-casing does not change are those of lowered characters. -/
theorem lowercase_eq_self_iff {text : List Char} :
    lowercase text = text ↔ ∀ c ∈ text, IsLowered c := by
  constructor
  · intro hself c hc
    rw [← hself] at hc
    exact isLowered_of_mem_lowercaseAfter hc
  · intro htext
    exact lowercaseAfter_eq_self htext []

end StyleDoc.Unicode
