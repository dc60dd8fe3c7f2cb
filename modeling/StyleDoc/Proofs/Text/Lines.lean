import StyleDoc.Text.Lines

/-!
Lines that are written one below the other are found again when the text is cut. The text must not
offer the cut anything else to hold on to: no line holds a line feed, and none ends in a carriage
return, which would be taken for part of the line end. Texts that are joined by a separator are
taken apart by `List.splitOn`; what is added here is what such a joined text consists of.
-/

namespace StyleDoc.Text

theorem segments_append_break {line : List Char} (hline : '\n' ∉ line) (rest : List Char) :
    segments (line ++ '\n' :: rest) = (line ++ ['\n']) :: segments rest := by
  induction line with
  | nil =>
      change addToSegments '\n' (segments rest) = ['\n'] :: segments rest
      cases segments rest <;> simp [addToSegments]
  | cons c line ih =>
      have hc : c ≠ '\n' := fun heq => hline (heq ▸ List.mem_cons_self)
      have hrest : '\n' ∉ line := fun hmem => hline (List.mem_cons_of_mem _ hmem)
      change addToSegments c (segments (line ++ '\n' :: rest)) = _
      rw [ih hrest]
      simp [addToSegments, hc]

theorem dropTerminator_append_break {line : List Char} (hline : line.getLast? ≠ some '\r') :
    dropTerminator (line ++ ['\n']) = line := by
  unfold dropTerminator
  rw [List.reverse_append]
  cases hreverse : line.reverse with
  | nil => simpa using hreverse
  | cons last front =>
      have hline' : line = front.reverse ++ [last] := by
        simpa using congrArg List.reverse hreverse
      have hlast : last ≠ '\r' := by
        rintro rfl
        exact hline (by simp [hline'])
      simp [hline', hlast]

/-- A text that is empty or ends with a line feed is cut on its own, whatever follows it. -/
theorem segments_append {front : List Char} (hfront : front = [] ∨ front.getLast? = some '\n')
    (back : List Char) : segments (front ++ back) = segments front ++ segments back := by
  induction front with
  | nil => rfl
  | cons c front ih =>
      change addToSegments c (segments (front ++ back)) =
        addToSegments c (segments front) ++ segments back
      cases front with
      | nil =>
          obtain rfl : c = '\n' := by simpa using hfront
          exact segments_append_break List.not_mem_nil back
      | cons d front =>
          rw [ih (Or.inr (by simpa using hfront))]
          cases hcut : segments (d :: front) with
          | nil =>
              have hnone := flatten_segments (d :: front)
              rw [hcut] at hnone
              cases hnone
          | cons segment more => by_cases hc : c = '\n' <;> simp [addToSegments, hc]

theorem lines_append {front : List Char} (hfront : front = [] ∨ front.getLast? = some '\n')
    (back : List Char) : lines (front ++ back) = lines front ++ lines back := by
  unfold lines
  rw [segments_append hfront, List.map_append]

/-- Lines that are written above others are cut apart from them. -/
theorem lines_unlines_append (written : List String) (back : List Char) :
    lines ((unlines written).toList ++ back) = lines (unlines written).toList ++ lines back := by
  apply lines_append
  rcases List.eq_nil_or_concat written with rfl | ⟨above, line, rfl⟩
  · exact Or.inl rfl
  · exact Or.inr (by simp [unlines])

/-- Only carriage returns are ever lost from a line that is written above others. -/
theorem exists_append_dropTerminator (line : List Char) :
    ∃ trail, (∀ c ∈ trail, c = '\r') ∧ line = dropTerminator (line ++ ['\n']) ++ trail := by
  by_cases hlast : line.getLast? = some '\r'
  · obtain ⟨front, rfl⟩ := List.getLast?_eq_some_iff.mp hlast
    exact ⟨['\r'], by simp, by simp [dropTerminator]⟩
  · exact ⟨[], by simp, by rw [dropTerminator_append_break hlast, List.append_nil]⟩

/-- Written lines are found again up to the carriage returns at their ends. -/
theorem lines_flatMap_break_of_unbroken (written : List (List Char))
    (hwritten : ∀ line ∈ written, '\n' ∉ line) :
    lines (written.flatMap fun line => line ++ ['\n']) =
      written.map fun line => dropTerminator (line ++ ['\n']) := by
  induction written with
  | nil => rfl
  | cons line rest ih =>
      obtain ⟨hline, hrest⟩ := List.forall_mem_cons.mp hwritten
      rw [List.flatMap_cons, List.map_cons, lines_append (Or.inr (by simp)), ih hrest, lines,
        segments_append_break hline]
      rfl

/-- The cut undoes the writing of lines. -/
theorem lines_flatMap_break (written : List (List Char))
    (hwritten : ∀ line ∈ written, '\n' ∉ line ∧ line.getLast? ≠ some '\r') :
    lines (written.flatMap fun line => line ++ ['\n']) = written := by
  induction written with
  | nil => rfl
  | cons line rest ih =>
      obtain ⟨hbreak, hreturn⟩ := hwritten line List.mem_cons_self
      have hrest := ih fun other hmem => hwritten other (List.mem_cons_of_mem _ hmem)
      unfold lines at hrest ⊢
      rw [List.flatMap_cons, List.append_assoc, List.singleton_append,
        segments_append_break hbreak, List.map_cons, dropTerminator_append_break hreturn, hrest]

theorem lines_unlines (written : List (List Char))
    (hwritten : ∀ line ∈ written, '\n' ∉ line ∧ line.getLast? ≠ some '\r') :
    lines (unlines (written.map String.ofList)).toList = written := by
  have htext : (unlines (written.map String.ofList)).toList =
      written.flatMap fun line => line ++ ['\n'] := by
    simp [unlines, List.flatMap_map]
  rw [htext, lines_flatMap_break written hwritten]

theorem isPrefix_dropTerminator (segment : List Char) : dropTerminator segment <+: segment := by
  unfold dropTerminator
  split
  · rename_i front hreverse
    exact ⟨['\r', '\n'], by simpa using (congrArg List.reverse hreverse).symm⟩
  · rename_i front _ hreverse
    exact ⟨['\n'], by simpa using (congrArg List.reverse hreverse).symm⟩
  · exact List.prefix_refl _

/-- Every line is a piece of the text. -/
theorem infix_of_mem_lines {text line : List Char} (hline : line ∈ lines text) :
    line <:+: text := by
  obtain ⟨segment, hsegment, rfl⟩ := List.mem_map.mp hline
  have hinside : segment <:+: (segments text).flatten := List.infix_of_mem_flatten hsegment
  rw [flatten_segments] at hinside
  exact (isPrefix_dropTerminator segment).isInfix.trans hinside

/-- The text with a carriage return in front of every line feed. -/
def withReturns (text : List Char) : List Char :=
  text.flatMap fun c => if c = '\n' then ['\r', '\n'] else [c]

theorem withReturns_of_unbroken {text : List Char} (htext : '\n' ∉ text) :
    withReturns text = text := by
  induction text with
  | nil => rfl
  | cons c rest ih =>
      have hc : c ≠ '\n' := fun heq => htext (heq ▸ List.mem_cons_self)
      have hrest := ih fun hmem => htext (List.mem_cons_of_mem _ hmem)
      unfold withReturns at hrest ⊢
      rw [List.flatMap_cons, if_neg hc, hrest, List.singleton_append]

/-- The cut is made at the same places. -/
theorem segments_withReturns (text : List Char) :
    segments (withReturns text) = (segments text).map withReturns := by
  induction text with
  | nil => rfl
  | cons c rest ih =>
      by_cases hc : c = '\n'
      · subst hc
        have hbreak : segments ('\n' :: rest) = ['\n'] :: segments rest :=
          segments_append_break List.not_mem_nil rest
        have hreturn : segments (withReturns ('\n' :: rest)) =
            ['\r', '\n'] :: segments (withReturns rest) :=
          segments_append_break (by decide : '\n' ∉ ['\r']) (withReturns rest)
        rw [hreturn, hbreak, ih]
        rfl
      · have hkept (text : List Char) : withReturns (c :: text) = c :: withReturns text := by
          simp [withReturns, hc]
        rw [hkept]
        change addToSegments c (segments (withReturns rest)) =
          (addToSegments c (segments rest)).map withReturns
        rw [ih]
        cases segments rest with
        | nil => simp [addToSegments, withReturns, hc]
        | cons segment more => simp [addToSegments, hc, hkept]

/-- A line feed is only ever the last character of a segment. -/
theorem unbroken_or_ended_of_mem_segments {text segment : List Char}
    (hsegment : segment ∈ segments text) :
    '\n' ∉ segment ∨ ∃ body, '\n' ∉ body ∧ segment = body ++ ['\n'] := by
  induction text generalizing segment with
  | nil => cases hsegment
  | cons c rest ih =>
      change segment ∈ addToSegments c (segments rest) at hsegment
      have hadded : segment = [c] ∨ segment ∈ segments rest ∨
          c ≠ '\n' ∧ ∃ first ∈ segments rest, segment = c :: first := by
        cases hrest : segments rest with
        | nil => simpa [hrest, addToSegments] using hsegment
        | cons first more =>
            by_cases hc : c = '\n'
            · subst hc
              simpa [hrest, addToSegments] using hsegment
            · rw [hrest, addToSegments, if_neg hc, List.mem_cons] at hsegment
              rcases hsegment with rfl | hmore
              · exact Or.inr (Or.inr ⟨hc, first, List.mem_cons_self, rfl⟩)
              · exact Or.inr (Or.inl (List.mem_cons_of_mem _ hmore))
      rcases hadded with rfl | hkept | ⟨hc, first, hfirst, rfl⟩
      · by_cases hc : c = '\n'
        · exact Or.inr ⟨[], by simp, by simp [hc]⟩
        · exact Or.inl (by simpa using Ne.symm hc)
      · exact ih hkept
      · rcases ih hfirst with hunbroken | ⟨body, hbody, rfl⟩
        · exact Or.inl (by simp [hunbroken, Ne.symm hc])
        · exact Or.inr ⟨c :: body, by simp [hbody, Ne.symm hc], rfl⟩

/-- Joined texts, with every separator taken to the text that follows it. -/
theorem intercalate_cons_eq_append_flatMap (separator : Char) (text : List Char)
    (rest : List (List Char)) :
    [separator].intercalate (text :: rest) = text ++ rest.flatMap (separator :: ·) := by
  induction rest generalizing text with
  | nil => simp [List.intercalate]
  | cons next rest ih =>
      rw [List.flatMap_cons, List.cons_append, ← ih next]
      simp [List.intercalate]

theorem mem_intercalate {c separator : Char} {texts : List (List Char)}
    (hmem : c ∈ [separator].intercalate texts) : c = separator ∨ ∃ text ∈ texts, c ∈ text := by
  cases texts with
  | nil => simp [List.intercalate] at hmem
  | cons text rest =>
      rw [intercalate_cons_eq_append_flatMap, List.mem_append, List.mem_flatMap] at hmem
      rcases hmem with hfirst | ⟨later, hlater, hc⟩
      · exact Or.inr ⟨text, List.mem_cons_self, hfirst⟩
      · rcases List.mem_cons.mp hc with heq | hinside
        · exact Or.inl heq
        · exact Or.inr ⟨later, List.mem_cons_of_mem _ hlater, hinside⟩

/-- The pieces of a text that has been cut at a separator hold what the text holds, but not the
separator. -/
theorem not_mem_and_subset_of_mem_splitOn {separator : Char} {text piece : List Char}
    (hpiece : piece ∈ text.splitOn separator) : separator ∉ piece ∧ piece ⊆ text := by
  induction text generalizing piece with
  | nil =>
      rw [List.splitOn_nil, List.mem_singleton] at hpiece
      simp [hpiece]
  | cons c text ih =>
      have hlonger {piece : List Char} (hlater : piece ∈ text.splitOn separator) :
          separator ∉ piece ∧ piece ⊆ c :: text :=
        ⟨(ih hlater).1, List.Subset.trans (ih hlater).2 (List.subset_cons_self c text)⟩
      rw [List.splitOn_cons_eq_if_modifyHead] at hpiece
      split at hpiece
      · rcases List.mem_cons.mp hpiece with rfl | hlater
        · simp
        · exact hlonger hlater
      · rename_i hc
        obtain ⟨first, more, hcut⟩ :=
          List.exists_cons_of_ne_nil (List.splitOn_ne_nil separator text)
        rw [hcut] at hlonger hpiece
        rcases List.mem_cons.mp hpiece with rfl | hlater
        · obtain ⟨hfirst, hsubset⟩ := hlonger List.mem_cons_self
          have hne : separator ≠ c := fun heq => hc (by simp [heq])
          exact ⟨by simp [hne, hfirst], List.cons_subset.mpr ⟨List.mem_cons_self, hsubset⟩⟩
        · exact hlonger (List.mem_cons_of_mem _ hlater)

end StyleDoc.Text
