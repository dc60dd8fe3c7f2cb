import Mathlib.Data.List.TakeWhile
import StyleDoc.Text.Scan

/-!
What each reading step returns when it is given text of the form it reads. A run is followed by a
character that ends it or by nothing at all; that is the only thing a step has to know about what
comes after.
-/

namespace StyleDoc.Text

section Runs

variable {accepts : Char → Bool} {run rest : List Char}

theorem takeWhile_append_of_stop (hrun : ∀ c ∈ run, accepts c = true)
    (hstop : ∀ c ∈ rest.head?, accepts c = false) :
    (run ++ rest).takeWhile accepts = run := by
  rw [List.takeWhile_append_of_pos hrun]
  cases rest with
  | nil => simp
  | cons c rest => simp [hstop c rfl]

theorem dropWhile_append_of_stop (hrun : ∀ c ∈ run, accepts c = true)
    (hstop : ∀ c ∈ rest.head?, accepts c = false) :
    (run ++ rest).dropWhile accepts = rest := by
  rw [List.dropWhile_append_of_pos hrun]
  cases rest with
  | nil => rfl
  | cons c rest => simp [hstop c rfl]

theorem run?_append (hne : run ≠ []) (hrun : ∀ c ∈ run, accepts c = true)
    (hstop : ∀ c ∈ rest.head?, accepts c = false) :
    run? accepts (run ++ rest) = some (run, rest) := by
  unfold run?
  rw [takeWhile_append_of_stop hrun hstop, dropWhile_append_of_stop hrun hstop]
  cases run with
  | nil => exact absurd rfl hne
  | cons c run => rfl

end Runs

section Marks

variable {mark : Char} {front : List Char}

theorem takeWhile_ne_append (hfront : mark ∉ front) (rest : List Char) :
    (front ++ mark :: rest).takeWhile (· ≠ mark) = front :=
  takeWhile_append_of_stop (fun _ hc => decide_eq_true (ne_of_mem_of_not_mem hc hfront)) (by simp)

/-- A text is cut at the first occurrence of a mark in one way only. -/
theorem append_cons_inj {other back more : List Char} (hfront : mark ∉ front)
    (hother : mark ∉ other) :
    front ++ mark :: back = other ++ mark :: more ↔ front = other ∧ back = more := by
  constructor
  · intro heq
    rcases List.append_eq_append_iff.mp heq with ⟨between, rfl, hback⟩ | ⟨between, rfl, hmore⟩
    · cases between with
      | nil => exact ⟨by simp, (List.cons.inj hback).2⟩
      | cons c between =>
          obtain ⟨rfl, -⟩ := List.cons.inj hback
          exact absurd (List.mem_append_right front List.mem_cons_self) hother
    · cases between with
      | nil => exact ⟨by simp, (List.cons.inj hmore).2.symm⟩
      | cons c between =>
          obtain ⟨rfl, -⟩ := List.cons.inj hmore
          exact absurd (List.mem_append_right other List.mem_cons_self) hfront
  · rintro ⟨rfl, rfl⟩
    rfl

end Marks

theorem dropBlanks_of_head {text : List Char} (hhead : ∀ c ∈ text.head?, isBlank c = false) :
    dropBlanks text = text := by
  have hempty : ∀ c ∈ ([] : List Char), isBlank c = true := by simp
  exact dropWhile_append_of_stop hempty hhead

theorem blanks?_space {text : List Char} (hhead : ∀ c ∈ text.head?, isBlank c = false) :
    blanks? (' ' :: text) = some text := by
  change some (dropBlanks text) = some text
  rw [dropBlanks_of_head hhead]

theorem braced?_append {inner : List Char} (rest : List Char) (hinner : '}' ∉ inner) :
    braced? ('{' :: (inner ++ '}' :: rest)) = some (inner, rest) := by
  have hrun : ∀ c ∈ inner, decide (c ≠ '}') = true := by
    intro c hmem
    simpa using ne_of_mem_of_not_mem hmem hinner
  have hstop : ∀ c ∈ ('}' :: rest).head?, decide (c ≠ '}') = false := by simp
  simp only [braced?]
  rw [dropWhile_append_of_stop hrun hstop, takeWhile_append_of_stop hrun hstop]

end StyleDoc.Text
