import Mathlib.Data.List.Basic

/-!
Replacing characters by words. A replacement searches the whole text, and every later one searches
what the earlier ones have left, words that were put in included. What comes out is told for one
replacement by following its search to the end of the text, and for several by induction on their
table: if no word holds a character that is replaced after it, the words are left alone, and one
pass over the text would have done the same.
-/

namespace StyleDoc.Text

/-- What a table of replacements has in the place of a character. -/
def substitute : List (Char × String) → Char → List Char
  | [], c => [c]
  | (d, word) :: table, c => if c = d then word.toList else substitute table c

/-- The replacements of a table, one after the other, each made all through the text. -/
def replaceInTurn (table : List (Char × String)) (text : String) : String :=
  table.foldl (fun text entry => text.replace entry.1 entry.2) text

theorem substitute_of_forall_ne {table : List (Char × String)} {c : Char}
    (hc : ∀ entry ∈ table, c ≠ entry.1) : substitute table c = [c] := by
  induction table with
  | nil => rfl
  | cons entry table ih =>
      obtain ⟨hentry, htable⟩ := List.forall_mem_cons.mp hc
      rw [substitute, if_neg hentry, ih htable]

/-- Text without the characters of the table stays as it is. -/
theorem flatMap_substitute_of_not_mem {table : List (Char × String)} {text : List Char}
    (htext : ∀ entry ∈ table, entry.1 ∉ text) : text.flatMap (substitute table) = text := by
  have hchars : text.flatMap (substitute table) = text.flatMap fun c => [c] := by
    apply List.flatMap_congr
    intro c hc
    exact substitute_of_forall_ne fun entry hentry => ne_of_mem_of_not_mem hc (htext entry hentry)
  exact hchars.trans (List.flatMap_singleton' text)

section Search

open String.Slice String.Slice.Pattern String.Slice.Pattern.Model

variable {c : Char} {word : String} {slice : String.Slice}

/-- What one step of a search adds to the text: the word for a match, and else what the step has
passed over. -/
def written (word : String) : SearchStep slice → String
  | .matched _ _ => word
  | .rejected start stop => (slice.slice! start stop).copy

theorem replace_eq_foldl (text : String) (c : Char) (word : String) :
    text.replace c word =
      (ToForwardSearcher.toSearcher c text.toSlice).toList.foldl
        (fun sofar step => sofar ++ written word step) "" := by
  rw [String.replace, String.Slice.replace, Std.Iter.foldl_toList]
  congr 1
  funext sofar step
  cases step with
  | matched start stop => exact congrArg (sofar ++ ·) String.copy_toSlice
  | rejected start stop => rfl

theorem not_mem_of_rejected {start stop : slice.Pos} (hle : start ≤ stop)
    (hrejected : ∀ pos, start ≤ pos → pos < stop → ¬ MatchesAt c pos) :
    c ∉ (slice.slice start stop hle).copy.toList := by
  intro hc
  obtain ⟨pos, hpos, hget⟩ := mem_toList_copy_iff_exists_get.mp hc
  have hstop : Pos.ofSlice pos < stop := by
    simpa [← Pos.lt_endPos_iff, ← Pos.ofSlice_lt_ofSlice_iff] using hpos
  have hmatches : MatchesAt c (Pos.ofSlice pos) :=
    Char.matchesAt_iff.mpr ⟨Pos.ne_endPos_of_lt hstop, Pos.get_eq_get_ofSlice ▸ hget⟩
  exact hrejected _ Pos.le_ofSlice hstop hmatches

/-- The steps of a search that goes on from a position write the text behind that position. -/
theorem toList_foldl_written {pos : slice.Pos} {steps : List (SearchStep slice)}
    (hsteps : IsValidSearchFrom c pos steps) {front back : String} (hsplits : pos.Splits front back)
    (sofar : String) :
    (steps.foldl (fun sofar step => sofar ++ written word step) sofar).toList =
      sofar.toList ++ back.toList.flatMap (substitute [(c, word)]) := by
  induction hsteps generalizing front back sofar with
  | endPos =>
      have hback : back = "" := (splits_endPos_iff.mp hsplits).2
      simp [hback]
  | matched hmatch _ ih =>
      obtain ⟨hne, rfl, hget⟩ := Char.isLongestMatchAt_iff.mp hmatch
      obtain ⟨back, rfl⟩ := hsplits.exists_eq_singleton_append hne
      rw [List.foldl_cons, ih hsplits.next]
      simp [written, substitute, hget]
  | @mismatched _ start stop hlt hrejected _ ih =>
      have hle : start ≤ stop := Std.le_of_lt hlt
      have hpassed : ∀ entry ∈ [(c, word)],
          entry.1 ∉ (slice.slice start stop hle).copy.toList := by
        simpa using not_mem_of_rejected hle hrejected
      obtain ⟨before, after, hstart, hstop⟩ := copy_slice_eq_iff_splits.mp ⟨hle, rfl⟩
      obtain rfl := hsplits.eq_right hstart
      rw [List.foldl_cons, ih hstop, written, ← slice_eq_slice! (h := hle), String.toList_append,
        String.toList_append, List.flatMap_append, flatMap_substitute_of_not_mem hpassed,
        List.append_assoc]

theorem toList_replace (text : String) (c : Char) (word : String) :
    (text.replace c word).toList = text.toList.flatMap (substitute [(c, word)]) := by
  have hsteps : IsValidSearchFrom c text.toSlice.startPos
      (ToForwardSearcher.toSearcher c text.toSlice).toList :=
    LawfulToForwardSearcherModel.isValidSearchFrom_toList _
  rw [replace_eq_foldl, toList_foldl_written hsteps (splits_startPos _), String.copy_toSlice,
    String.toList_empty, List.nil_append]

end Search

/-- Replacements made in turn come to one substitution when no word holds a character that is
replaced after it. -/
theorem toList_replaceInTurn {table : List (Char × String)}
    (htable : table.Pairwise fun earlier later => later.1 ∉ earlier.2.toList) (text : String) :
    (replaceInTurn table text).toList = text.toList.flatMap (substitute table) := by
  induction table generalizing text with
  | nil => exact (List.flatMap_singleton' _).symm
  | cons entry table ih =>
      obtain ⟨c, word⟩ := entry
      obtain ⟨hword, hrest⟩ := List.pairwise_cons.mp htable
      have hturn : replaceInTurn ((c, word) :: table) text =
          replaceInTurn table (text.replace c word) := rfl
      rw [hturn, ih hrest, toList_replace, List.flatMap_assoc]
      apply List.flatMap_congr
      intro d _
      by_cases hd : d = c
      · simp only [substitute, if_pos hd]
        exact flatMap_substitute_of_not_mem hword
      · simp only [substitute, if_neg hd, List.flatMap_singleton]

end StyleDoc.Text
