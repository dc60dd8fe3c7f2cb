import Mathlib.Data.List.DropRight
import StyleDoc.Proofs.Text.Scan
import StyleDoc.Proofs.Writing

/-!
Plain text on a comment line. Taking the decoration off such a line gives back the text, and a
plain text stays plain behind a tag's own words, so the lines of a written item hold exactly the
texts that were meant.
-/

namespace StyleDoc

namespace Text

theorem isBlank_eq_false_of_isSpace {c : Char} (hspace : isSpace c = false) :
    isBlank c = false := by
  rw [Bool.eq_false_iff] at hspace ⊢
  exact fun hblank => hspace (isSpace_of_isBlank hblank)

theorem toNat_of_isNameChar {c : Char} (hname : isNameChar c = true) :
    0x2D ≤ c.toNat ∧ c.toNat ≤ 0x7A ∧ c.toNat ≠ 0x2F := by
  simp only [isNameChar, Bool.or_eq_true, beq_iff_eq] at hname
  rcases hname with (halphanum | rfl) | rfl
  · have hranges : (decide ('A'.val ≤ c.val ∧ c.val ≤ 'Z'.val) ||
        (decide ('a'.val ≤ c.val) && decide (c.val ≤ 'z'.val)) ||
        (decide ('0'.val ≤ c.val) && decide (c.val ≤ '9'.val))) = true := halphanum
    simp [UInt32.le_iff_toNat_le] at hranges
    omega
  · decide
  · decide

theorem isSpace_eq_false_of_isNameChar {c : Char} (hname : isNameChar c = true) :
    isSpace c = false := by
  have hrange := toNat_of_isNameChar hname
  simp [isSpace, isBlank]
  omega

theorem trimRight_eq_rdropWhile (text : List Char) : trimRight text = text.rdropWhile isSpace := rfl

theorem trimRight_of_last {text : List Char} (hlast : ∀ c ∈ text.getLast?, isSpace c = false) :
    trimRight text = text := by
  rw [trimRight_eq_rdropWhile, List.rdropWhile_eq_self_iff]
  intro hne
  simpa using hlast _ (List.getLast?_eq_some_getLast hne)

theorem trimLeft_of_head {text : List Char} (hhead : ∀ c ∈ text.head?, isSpace c = false) :
    trimLeft text = text := by
  cases text with
  | nil => rfl
  | cons c rest => simp [trimLeft, hhead c rfl]

theorem IsPlain.trim {text : List Char} (hplain : IsPlain text) : Text.trim text = text := by
  rw [Text.trim, trimLeft_of_head hplain.head, trimRight_of_last hplain.last]

/-- Spaces around a plain text are no part of it. -/
theorem IsPlain.trim_spaces {text : List Char} (hplain : IsPlain text) (gap : Nat) :
    Text.trim (' ' :: (text ++ List.replicate gap ' ')) = text := by
  have hspace : isSpace ' ' = true := by decide
  have hleft : trimLeft (' ' :: (text ++ List.replicate gap ' ')) =
      trimLeft (text ++ List.replicate gap ' ') := by
    simp [trimLeft, hspace]
  rw [Text.trim, hleft]
  cases text with
  | nil => simp [trimLeft, trimRight, hspace]
  | cons c rest =>
      rw [trimLeft_of_head (by simpa using hplain.head)]
      have hright : trimRight (c :: rest ++ List.replicate gap ' ') = trimRight (c :: rest) := by
        unfold trimRight
        rw [List.reverse_append, List.reverse_replicate,
          List.dropWhile_append_of_pos (by simp [hspace])]
      rw [hright, trimRight_of_last hplain.last]

theorem IsPlain.isBlank_head {text : List Char} (hplain : IsPlain text) :
    ∀ c ∈ text.head?, isBlank c = false :=
  fun c hc => isBlank_eq_false_of_isSpace (hplain.head c hc)

/-- A text that ends in a mark other than a slash closes no comment. -/
theorem IsPlain.of_last {text : List Char} (hbreak : '\n' ∉ text)
    (hhead : ∀ c ∈ text.head?, isSpace c = false)
    (hlast : ∀ c ∈ text.getLast?, isSpace c = false ∧ c ≠ '/') : IsPlain text where
  unbroken := hbreak
  head := hhead
  last := fun c hc => (hlast c hc).1
  unclosed := by
    rintro ⟨front, rfl⟩
    exact (hlast '/' (by simp)).2 rfl

/-- Plain text stays plain behind other text, unless a star in front of it meets its slash. -/
theorem IsPlain.append {opening text : List Char} (hplain : IsPlain text) (hne : text ≠ [])
    (hopening : opening ≠ []) (hbreak : '\n' ∉ opening)
    (hhead : ∀ c ∈ opening.head?, isSpace c = false) (hstar : opening.getLast? ≠ some '*') :
    IsPlain (opening ++ text) where
  unbroken := by simp [hbreak, hplain.unbroken]
  head := by simpa [List.head?_append_of_ne_nil _ hopening] using hhead
  last := by simpa [List.getLast?_append_of_ne_nil _ hne] using hplain.last
  unclosed := by
    intro hclosed
    rcases List.suffix_or_suffix_of_suffix hclosed (List.suffix_append opening text) with
      hshort | hlong
    · exact hplain.unclosed hshort
    · rcases List.suffix_cons_iff.mp hlong with rfl | hslash
      · exact hplain.unclosed (List.suffix_refl _)
      · rcases List.suffix_cons_iff.mp hslash with rfl | hnil
        · obtain ⟨front, hfront⟩ := hclosed
          have hsplit : (front ++ ['*']) ++ ['/'] = opening ++ ['/'] := by
            simpa using hfront
          rw [← List.append_cancel_right hsplit] at hstar
          simp at hstar
        · exact hne (List.suffix_nil.mp hnil)

end Text

namespace Comment

open Text

/-- A plain text cannot make a line of slashes close a block comment. -/
theorem beforeCloser_spaces {text : List Char} (hplain : IsPlain text) (gap : Nat) :
    beforeCloser (' ' :: (text ++ List.replicate gap ' ')) =
      ' ' :: (text ++ List.replicate gap ' ') := by
  have hspaces : (' ' :: (text ++ List.replicate gap ' ')).reverse.dropWhile isBlank =
      (text.reverse ++ [' ']).dropWhile isBlank := by
    have hblank : isBlank ' ' = true := by decide
    rw [List.reverse_cons, List.reverse_append, List.reverse_replicate, List.append_assoc,
      List.dropWhile_append_of_pos (by simp [hblank])]
  have hopen : ∀ front, (text.reverse ++ [' ']).dropWhile isBlank ≠ '/' :: '*' :: front := by
    intro front heq
    cases hreverse : text.reverse with
    | nil => simp [hreverse, isBlank] at heq
    | cons last before =>
        have htext : text = before.reverse ++ [last] := by
          simpa using congrArg List.reverse hreverse
        have hlast : isBlank last = false :=
          isBlank_eq_false_of_isSpace (hplain.last last (by simp [htext]))
        rw [hreverse, List.cons_append, List.dropWhile_cons_of_neg (by simp [hlast])] at heq
        obtain ⟨rfl, hbefore⟩ := List.cons.inj heq
        cases before with
        | nil => cases hbefore
        | cons star before =>
            obtain ⟨rfl, _⟩ := List.cons.inj hbefore
            exact hplain.unclosed ⟨before.reverse, by simp [htext]⟩
  unfold beforeCloser
  rw [hspaces]
  split
  · rename_i front heq
    exact absurd heq (hopen front)
  · rfl

/-- The text of a line of slashes is what was written behind them. -/
theorem text_slashes {text : List Char} (hplain : IsPlain text) (gap : Nat) :
    Comment.text ("/// ".toList ++ text ++ List.replicate gap ' ') = text := by
  have hmarker : afterMarker ("/// ".toList ++ text ++ List.replicate gap ' ') =
      ' ' :: (text ++ List.replicate gap ' ') := by
    simp [afterMarker, dropBlanks, isBlank]
  unfold Comment.text
  rw [hmarker, beforeCloser_spaces hplain, hplain.trim_spaces]

theorem covers_slashes (rest : List Char) : covers ("/// ".toList ++ rest) = true := by
  simp [covers, dropBlanks, isBlank]

end Comment

end StyleDoc
