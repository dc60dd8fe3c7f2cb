import StyleDoc.Html.Piece

/-!
Escaped text is safe and says what was meant. It holds none of the characters that begin or end a
tag or an attribute value, and reading the four entities in one pass gives back the text, whatever
stands behind it.
-/

namespace StyleDoc.Html

/-- Characters that have a meaning of their own in markup. -/
def IsMarkup (c : Char) : Prop :=
  c = '<' ∨ c = '>' ∨ c = '"'

instance : DecidablePred IsMarkup :=
  fun c => inferInstanceAs (Decidable (c = '<' ∨ c = '>' ∨ c = '"'))

/-- The text with each of the four entities read as its character. -/
def decodeChars : List Char → List Char
  | '&' :: 'a' :: 'm' :: 'p' :: ';' :: rest => '&' :: decodeChars rest
  | '&' :: 'l' :: 't' :: ';' :: rest => '<' :: decodeChars rest
  | '&' :: 'g' :: 't' :: ';' :: rest => '>' :: decodeChars rest
  | '&' :: 'q' :: 'u' :: 'o' :: 't' :: ';' :: rest => '"' :: decodeChars rest
  | c :: rest => c :: decodeChars rest
  | [] => []

theorem decodeChars_cons {c : Char} (hc : c ≠ '&') (rest : List Char) :
    decodeChars (c :: rest) = c :: decodeChars rest := by
  rw [decodeChars] <;> exact fun _ heq => absurd heq hc

theorem decodeChars_escapeChar_append (c : Char) (rest : List Char) :
    decodeChars (escapeChar c ++ rest) = c :: decodeChars rest := by
  by_cases hamp : c = '&'
  · subst hamp
    rfl
  by_cases hless : c = '<'
  · subst hless
    rfl
  by_cases hgreater : c = '>'
  · subst hgreater
    rfl
  by_cases hquote : c = '"'
  · subst hquote
    rfl
  have hself : escapeChar c = [c] := by simp [escapeChar, hamp, hless, hgreater, hquote]
  rw [hself, List.singleton_append, decodeChars_cons hamp]

theorem decodeChars_escapeChars_append (text rest : List Char) :
    decodeChars (escapeChars text ++ rest) = text ++ decodeChars rest := by
  induction text with
  | nil => rfl
  | cons c text ih =>
      unfold escapeChars at ih ⊢
      rw [List.flatMap_cons, List.append_assoc, decodeChars_escapeChar_append, ih, List.cons_append]

theorem not_isMarkup_of_mem_escapeChar {c d : Char} (hd : d ∈ escapeChar c) : ¬ IsMarkup d := by
  by_cases hc : c ∈ ['&', '<', '>', '"']
  · have hentities : ['&', '<', '>', '"'].all (fun c => (escapeChar c).all (¬ IsMarkup ·)) := by
      decide
    have hentity := List.all_eq_true.mp (List.all_eq_true.mp hentities c hc) d hd
    exact of_decide_eq_true hentity
  · simp only [List.mem_cons, List.not_mem_nil, or_false, not_or] at hc
    obtain ⟨hamp, hmarkup⟩ := hc
    have hself : escapeChar c = [c] := by simp [escapeChar, hamp, hmarkup]
    rw [hself, List.mem_singleton] at hd
    simpa [hd, IsMarkup] using hmarkup

theorem not_isMarkup_of_mem_escapeChars {text : List Char} {c : Char}
    (hc : c ∈ escapeChars text) : ¬ IsMarkup c := by
  obtain ⟨d, _, hd⟩ := List.mem_flatMap.mp hc
  exact not_isMarkup_of_mem_escapeChar hd

/-- Text without characters that have a meaning in markup is written as it is. -/
theorem escapeChars_eq_self {text : List Char}
    (htext : ∀ c ∈ text, c ≠ '&' ∧ ¬ IsMarkup c) : escapeChars text = text := by
  induction text with
  | nil => rfl
  | cons c text ih =>
      obtain ⟨⟨hamp, hmarkup⟩, htext⟩ := List.forall_mem_cons.mp htext
      simp only [IsMarkup, not_or] at hmarkup
      have hself : escapeChar c = [c] := by simp [escapeChar, hamp, hmarkup]
      rw [escapeChars, List.flatMap_cons, hself, List.singleton_append]
      exact congrArg (c :: ·) (ih htext)

end StyleDoc.Html
