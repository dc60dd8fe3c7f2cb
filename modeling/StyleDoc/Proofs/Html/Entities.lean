import StyleDoc.Proofs.Html.Escaping
import StyleDoc.Proofs.Text.Replacement

/-!
Escaping as the replacement of characters by entities. Four replacements in turn write the same as
one pass over the text, because `&` is replaced first and no entity holds a character that is
replaced after it. Escaped text is told by its form: it has no markup, and every `&` in it begins an
entity. On text of that form, whatever it says, reading the entities and escaping undo each other.
-/

namespace StyleDoc.Html

/-- The characters that are not written as they are, each with its entity, in the order in which
they are replaced. -/
def entities : List (Char × String) :=
  [('&', "&amp;"), ('<', "&lt;"), ('>', "&gt;"), ('"', "&quot;")]

/-- The form of escaped text. -/
structure IsEscaped (written : List Char) : Prop where
  noMarkup : ∀ c ∈ written, ¬ IsMarkup c
  entity : ∀ back, '&' :: back <:+ written → ∃ entity ∈ entities, entity.2.toList <+: '&' :: back

/-- The text that escaped text was written for. -/
def decode (written : String) : String :=
  String.ofList (decodeChars written.toList)

/-- An entity is replaced before the characters that it holds would be. -/
theorem pairwise_entities :
    entities.Pairwise fun earlier later => later.1 ∉ earlier.2.toList := by
  decide

theorem escapeChar_eq_substitute (c : Char) : escapeChar c = Text.substitute entities c :=
  rfl

theorem escapeChars_cons (c : Char) (text : List Char) :
    escapeChars (c :: text) = escapeChar c ++ escapeChars text :=
  List.flatMap_cons

theorem toList_escape (text : String) :
    (escape text).toList = text.toList.flatMap (Text.substitute entities) :=
  String.toList_ofList

theorem escape_append (text other : String) :
    escape (text ++ other) = escape text ++ escape other := by
  rw [← String.toList_inj, String.toList_append]
  simp only [toList_escape, String.toList_append, List.flatMap_append]

theorem escape_eq_replaceInTurn (text : String) :
    escape text = Text.replaceInTurn entities text := by
  rw [← String.toList_inj, toList_escape, Text.toList_replaceInTurn pairwise_entities]

theorem decodeChars_escapeChars (text : List Char) : decodeChars (escapeChars text) = text := by
  have hdecode := decodeChars_escapeChars_append text []
  rwa [List.append_nil, decodeChars, List.append_nil] at hdecode

theorem decode_escape (text : String) : decode (escape text) = text := by
  rw [decode, escape, String.toList_ofList, decodeChars_escapeChars, String.ofList_toList]

theorem escapeChar_of_mem_entities {entity : Char × String} (hentity : entity ∈ entities) :
    escapeChar entity.1 = entity.2.toList := by
  have hall : ∀ entity ∈ entities, escapeChar entity.1 = entity.2.toList := by decide
  exact hall entity hentity

/-- A character is written as an entity or as itself. -/
theorem escapeChar_cases (c : Char) :
    (∃ entity ∈ entities, escapeChar c = entity.2.toList) ∨ escapeChar c = [c] ∧ c ≠ '&' := by
  by_cases hc : ∃ entity ∈ entities, entity.1 = c
  · obtain ⟨entity, hentity, rfl⟩ := hc
    exact .inl ⟨entity, hentity, escapeChar_of_mem_entities hentity⟩
  · push Not at hc
    have hself : escapeChar c = [c] := by
      rw [escapeChar_eq_substitute]
      exact Text.substitute_of_forall_ne fun entity hentity => (hc entity hentity).symm
    have hamp : '&' ≠ c := hc ('&', "&amp;") List.mem_cons_self
    exact .inr ⟨hself, hamp.symm⟩

/-- An entity has its `&` in front and no other one. -/
theorem exists_of_mem_entities {entity : Char × String} (hentity : entity ∈ entities) :
    ∃ name, entity.2.toList = '&' :: name ∧ '&' ∉ name := by
  have hall : ∀ entity ∈ entities,
      entity.2.toList = '&' :: entity.2.toList.tail ∧ '&' ∉ entity.2.toList.tail := by decide
  exact ⟨_, hall entity hentity⟩

theorem suffix_of_not_mem {c : Char} {front back rest : List Char} (hfront : c ∉ front)
    (hback : c :: back <:+ front ++ rest) : c :: back <:+ rest := by
  induction front with
  | nil => exact hback
  | cons d front ih =>
      rcases List.suffix_cons_iff.mp hback with heq | hback
      · exact absurd (List.cons.inj heq).1 (List.ne_of_not_mem_cons hfront)
      · exact ih (List.not_mem_of_not_mem_cons hfront) hback

theorem isEscaped_escapeChars (text : List Char) : IsEscaped (escapeChars text) := by
  refine ⟨fun c => not_isMarkup_of_mem_escapeChars, fun back hback => ?_⟩
  induction text with
  | nil => exact absurd (List.suffix_nil.mp hback) (List.cons_ne_nil _ _)
  | cons c text ih =>
      rw [escapeChars_cons] at hback
      rcases escapeChar_cases c with ⟨entity, hentity, hwritten⟩ | ⟨hself, hc⟩
      · obtain ⟨name, hname, hamp⟩ := exists_of_mem_entities hentity
        rw [hwritten, hname, List.cons_append] at hback
        rcases List.suffix_cons_iff.mp hback with heq | hback
        · exact ⟨entity, hentity, by rw [heq, hname]; exact List.prefix_append ('&' :: name) _⟩
        · exact ih (suffix_of_not_mem hamp hback)
      · rw [hself] at hback
        exact ih (suffix_of_not_mem (by simpa using hc.symm) hback)

theorem IsEscaped.of_suffix {written rest : List Char} (hwritten : IsEscaped written)
    (hrest : rest <:+ written) : IsEscaped rest where
  noMarkup c hc := hwritten.noMarkup c (hrest.mem hc)
  entity back hback := hwritten.entity back (hback.trans hrest)

/-- What stands in front is an entity, or a character that is written as itself. -/
theorem IsEscaped.exists_escapeChar_append {d : Char} {rest : List Char}
    (hwritten : IsEscaped (d :: rest)) :
    ∃ c more, d :: rest = escapeChar c ++ more ∧ more.length < (d :: rest).length := by
  by_cases hd : d = '&'
  · subst hd
    obtain ⟨entity, hentity, more, hmore⟩ := hwritten.entity rest List.suffix_rfl
    obtain ⟨name, hname, -⟩ := exists_of_mem_entities hentity
    refine ⟨entity.1, more, by rw [escapeChar_of_mem_entities hentity, hmore], ?_⟩
    rw [← hmore, hname, List.length_append, List.length_cons]
    omega
  · have hmarkup : ¬ IsMarkup d := hwritten.noMarkup d List.mem_cons_self
    have hself : escapeChars [d] = [d] := escapeChars_eq_self (by simpa using ⟨hd, hmarkup⟩)
    rw [escapeChars, List.flatMap_singleton] at hself
    exact ⟨d, rest, by rw [hself, List.singleton_append], Nat.lt_add_one _⟩

/-- Text of the form of escaped text has been written for some text. -/
theorem IsEscaped.exists_eq {written : List Char} (hwritten : IsEscaped written) :
    ∃ text, written = escapeChars text := by
  -- A whole entity is taken at a time, so the induction is on the length.
  induction hlength : written.length using Nat.strongRecOn generalizing written with
  | ind n ih =>
      cases written with
      | nil => exact ⟨[], rfl⟩
      | cons d rest =>
          obtain ⟨c, more, hmore, hshorter⟩ := hwritten.exists_escapeChar_append
          have hsuffix : more <:+ d :: rest := ⟨escapeChar c, hmore.symm⟩
          obtain ⟨text, rfl⟩ := ih _ (hlength ▸ hshorter) (hwritten.of_suffix hsuffix) rfl
          exact ⟨c :: text, by rw [hmore, escapeChars_cons]⟩

theorem escape_decode {written : String} (hwritten : IsEscaped written.toList) :
    escape (decode written) = written := by
  obtain ⟨text, htext⟩ := hwritten.exists_eq
  rw [escape, decode, String.toList_ofList, htext, decodeChars_escapeChars, ← htext,
    String.ofList_toList]

/-- Escaping is four replacements in turn, and also one substitution, character by character. It can
be done part by part, and what it writes has the form of escaped text. Reading the entities in one
pass gives back the text, even if the text holds entities itself, and nothing else of that form is
read as this text. -/
theorem escape_in_one_pass (text other : String) :
    escape text =
        (((text.replace '&' "&amp;").replace '<' "&lt;").replace '>' "&gt;").replace '"' "&quot;" ∧
      (escape text).toList = text.toList.flatMap (Text.substitute entities) ∧
      escape (text ++ other) = escape text ++ escape other ∧
      IsEscaped (escape text).toList ∧
      decode (escape text) = text ∧
      (escape other = escape text → other = text) ∧
      ∀ written, IsEscaped written.toList → decode written = text → written = escape text := by
  refine ⟨escape_eq_replaceInTurn text, toList_escape text, escape_append text other, ?_,
    decode_escape text, ?_, ?_⟩
  · rw [escape, String.toList_ofList]
    exact isEscaped_escapeChars text.toList
  · intro hother
    rw [← decode_escape other, hother, decode_escape]
  · rintro written hwritten rfl
    exact (escape_decode hwritten).symm

/-- A text that holds an entity of its own, and markup. -/
theorem escape_in_one_pass_nested :
    IsEscaped "&amp;lt; &quot;&lt;&quot;".toList ∧
      decode "&amp;lt; &quot;&lt;&quot;" = "&lt; \"<\"" ∧
      "&amp;lt; &quot;&lt;&quot;" = escape "&lt; \"<\"" ∧
      escape (decode "&amp;lt; &quot;&lt;&quot;") = escape "&lt; \"<\"" := by
  obtain ⟨-, -, -, hform, -, hsame, honly⟩ :=
    escape_in_one_pass "&lt; \"<\"" (decode "&amp;lt; &quot;&lt;&quot;")
  have hescape : escape "&lt; \"<\"" = "&amp;lt; &quot;&lt;&quot;" := by decide
  have hdecode : escape (decode "&amp;lt; &quot;&lt;&quot;") = escape "&lt; \"<\"" := by decide
  have hwritten : IsEscaped "&amp;lt; &quot;&lt;&quot;".toList := by rwa [hescape] at hform
  exact ⟨hwritten, hsame hdecode, honly _ hwritten (hsame hdecode), hdecode⟩

end StyleDoc.Html
