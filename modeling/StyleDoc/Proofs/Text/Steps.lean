import Mathlib.Data.List.TakeWhile
import StyleDoc.Proofs.Writing

/-!
What a reading step can return. Every step gives back pieces of the text that it was given, and each
piece has the form that its step reads; what is not in the text can therefore not be in any piece,
however many steps are taken.
-/

namespace StyleDoc

namespace Text

theorem dropBlanks_suffix (text : List Char) : dropBlanks text <:+ text :=
  List.dropWhile_suffix _

theorem blanks?_suffix {text rest : List Char} (hread : blanks? text = some rest) :
    rest <:+ text := by
  cases text with
  | nil => cases hread
  | cons c text =>
      simp only [blanks?, Option.ite_none_right_eq_some, Option.some.injEq] at hread
      rw [← hread.2]
      exact (dropBlanks_suffix text).trans (List.suffix_cons c text)

theorem run?_eq_some {accepts : Char → Bool} {text run rest : List Char}
    (hread : run? accepts text = some (run, rest)) :
    run ≠ [] ∧ (∀ c ∈ run, accepts c = true) ∧ text = run ++ rest := by
  unfold run? at hread
  split at hread
  · cases hread
  · rename_i found hne
    obtain ⟨rfl, rfl⟩ := Prod.mk.inj (Option.some.inj hread)
    exact ⟨hne, fun c hc => List.mem_takeWhile_imp hc, List.takeWhile_append_dropWhile.symm⟩

theorem braced?_eq_some {text inner rest : List Char}
    (hread : braced? text = some (inner, rest)) :
    '}' ∉ inner ∧ text = '{' :: (inner ++ '}' :: rest) := by
  unfold braced? at hread
  split at hread
  · rename_i body
    split at hread
    · cases hread
    · rename_i closing after hdrop
      obtain ⟨rfl, rfl⟩ := Prod.mk.inj (Option.some.inj hread)
      have hclosing : closing = '}' := by
        have hhead := List.head?_dropWhile_not (· ≠ '}') body
        rw [hdrop] at hhead
        simpa using hhead
      have hinner : '}' ∉ body.takeWhile (· ≠ '}') := fun hmem => by
        simpa using List.mem_takeWhile_imp hmem
      refine ⟨hinner, ?_⟩
      rw [hclosing] at hdrop
      rw [← hdrop, List.takeWhile_append_dropWhile]
  · cases hread

end Text

namespace Tag

open Text

theorem dropOptional_suffix (c : Char) (text : List Char) : dropOptional c text <:+ text := by
  cases text with
  | nil => exact List.suffix_refl _
  | cons d rest =>
      simp only [dropOptional]
      split
      · exact List.suffix_cons d rest
      · exact List.suffix_refl _

theorem named?_suffix {name : String} {line rest : Line} (hread : named? name line = some rest) :
    rest <:+ line :=
  ⟨name.toList, (literal?_eq_some_iff.mp hread).symm⟩

theorem unbroken?_eq_some {text read : List Char} (hread : unbroken? text = some read) :
    read = text ∧ '\n' ∉ text := by
  simpa [unbroken?, and_comm, eq_comm] using hread

/-- Words are never empty, not even those that a gap has given its last blank to. -/
theorem words?_eq_some {text words : List Char} (hread : words? text = some words) :
    words ≠ [] ∧ '\n' ∉ words := by
  unfold words? at hread
  split at hread
  · cases hread
  · split at hread
    · obtain ⟨rfl, hunbroken⟩ := unbroken?_eq_some hread
      exact ⟨List.cons_ne_nil _ _, hunbroken⟩
    · cases hread
  · rename_i hdrop
    obtain ⟨rfl, hunbroken⟩ := unbroken?_eq_some hread
    exact ⟨hdrop, hunbroken⟩

theorem word?_eq_some {text word : List Char} (hread : word? text = some word) :
    word ≠ [] ∧ ∀ c ∈ word, isBlank c = false := by
  simp only [word?, Option.bind_eq_bind, Option.bind_eq_some_iff, Option.pure_def,
    Option.some.injEq, Prod.exists] at hread
  obtain ⟨_, _, _, _, hrun, rfl⟩ := hread
  obtain ⟨hne, hword, _⟩ := run?_eq_some hrun
  exact ⟨hne, by simpa using hword⟩

theorem description?_unbroken {text description : List Char}
    (hread : description? text = some description) : '\n' ∉ description := by
  obtain ⟨rfl, hunbroken⟩ := unbroken?_eq_some hread
  exact hunbroken

/-- Text up to its closing parenthesis is flat; where a parenthesis is open already, it is flat
behind the one that closes it. The induction takes both cases together, because the reading passes
from one to the other at every parenthesis. -/
theorem upToClosing?_eq_some {inside : Bool} {whole text rest : List Char}
    (hread : upToClosing? inside whole = some (text, rest)) :
    whole = text ++ ')' :: rest ∧
      if inside then ∃ inner after, (∀ c ∈ inner, ¬ IsParenthesis c) ∧ IsFlat after ∧
        text = inner ++ ')' :: after
      else IsFlat text := by
  induction whole generalizing inside text with
  | nil => cases hread
  | cons c whole ih =>
      unfold upToClosing? at hread
      split at hread
      · rename_i hclosed
        simp only [Bool.and_eq_true, decide_eq_true_eq, Bool.not_eq_true'] at hclosed
        obtain ⟨rfl, rfl⟩ := hclosed
        obtain ⟨rfl, rfl⟩ := Prod.mk.inj (Option.some.inj hread)
        exact ⟨rfl, .nil⟩
      · rename_i hclosed
        split at hread
        · cases hread
        · rename_i hopened
          simp only [Option.bind_eq_bind, Option.bind_eq_some_iff, Option.pure_def,
            Option.some.injEq, Prod.exists, Prod.mk.injEq] at hread
          obtain ⟨text, rest, hrest, rfl, rfl⟩ := hread
          obtain ⟨rfl, hflat⟩ := ih hrest
          refine ⟨rfl, ?_⟩
          cases inside with
          | false =>
              by_cases hc : c = '('
              · subst hc
                simp only [decide_true, Bool.true_or, if_true] at hflat
                obtain ⟨inner, after, hinner, hafter, rfl⟩ := hflat
                exact .group inner after hinner hafter
              · have hplain : ¬ IsParenthesis c := by
                  simpa [IsParenthesis, hc] using hclosed
                exact .char c text hplain (by simpa [hc] using hflat)
          | true =>
              have hc : c ≠ '(' := by simpa using hopened
              by_cases hclosing : c = ')'
              · subst hclosing
                exact ⟨[], text, by simp, by simpa using hflat, rfl⟩
              · have hopen : (decide (c = '(') || (true && decide (c ≠ ')'))) = true := by
                  simp [hclosing]
                rw [if_pos hopen] at hflat
                obtain ⟨inner, after, hinner, hafter, rfl⟩ := hflat
                refine ⟨c :: inner, after, ?_, hafter, rfl⟩
                exact List.forall_mem_cons.mpr ⟨by simp [IsParenthesis, hc, hclosing], hinner⟩

theorem default?_eq_some {text default rest : List Char}
    (hread : default? text = some (default, rest)) : IsFlat default ∧ default <:+: text := by
  unfold default? at hread
  split at hread
  · rename_i body hgap
    obtain ⟨rfl, hflat⟩ := upToClosing?_eq_some hread
    refine ⟨by simpa using hflat, ?_⟩
    have hinside : default <:+: '(' :: (default ++ ')' :: rest) := ⟨['('], ')' :: rest, by simp⟩
    exact hinside.trans (blanks?_suffix hgap).isInfix
  · cases hread

theorem parameterName?_eq_some {text written rest : List Char}
    (hread : parameterName? text = some (written, rest)) :
    (∃ name, IsName name ∧ (written = name ∨ written = '$' :: name)) ∧ rest <:+ text := by
  unfold parameterName? at hread
  split at hread
  · simp only [Option.map_eq_some_iff, Prod.exists, Prod.mk.injEq] at hread
    obtain ⟨name, after, hrun, rfl, rfl⟩ := hread
    obtain ⟨hne, hname, rfl⟩ := run?_eq_some hrun
    exact ⟨⟨name, ⟨hne, hname⟩, Or.inr rfl⟩, '$' :: name, by simp⟩
  · obtain ⟨hne, hname, rfl⟩ := run?_eq_some hread
    exact ⟨⟨written, ⟨hne, hname⟩, Or.inl rfl⟩, written, rfl⟩

end Tag

end StyleDoc
