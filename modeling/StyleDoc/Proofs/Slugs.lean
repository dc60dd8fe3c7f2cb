import StyleDoc.Anchor
import StyleDoc.Proofs.PlainText

/-!
What slugs are made of. In ASCII every character is lowered by itself, whatever stands around it, so
a word of ASCII in front of a text has a slug of its own. The characters of names are kept: such a
name is lowered and otherwise left alone, and only its case is lost.
-/

namespace StyleDoc

theorem Text.toList_toLower (text : String) :
    text.toLower.toList = text.toList.map Char.toLower :=
  String.toList_map

namespace Unicode

/-- What can be checked for the characters of ASCII one by one holds for all of them. -/
theorem forall_ascii {P : Char → Prop} (hall : ∀ n < 128, P (Char.ofNat n)) (c : Char)
    (hc : c.toNat < 128) : P c :=
  Char.ofNat_toNat c ▸ hall c.toNat hc

theorem lowerChar_of_ascii {c : Char} (hc : c.toNat < 128) : lowerChar c = [c.toLower] :=
  forall_ascii (P := fun c => lowerChar c = [c.toLower]) (by decide +kernel) c hc

theorem lowercaseAfter_append {word : List Char} (hword : ∀ c ∈ word, c.toNat < 128)
    (before rest : List Char) :
    lowercaseAfter before (word ++ rest) =
      word.map Char.toLower ++ lowercaseAfter (word.reverse ++ before) rest := by
  induction word generalizing before with
  | nil => rfl
  | cons c word ih =>
      obtain ⟨hc, hword⟩ := List.forall_mem_cons.mp hword
      have hsigma : c ≠ 'Σ' := by
        rintro rfl
        exact absurd hc (by decide)
      rw [List.cons_append, lowercaseAfter, if_neg hsigma, lowerChar_of_ascii hc, ih hword]
      simp

end Unicode

namespace Slug

/-- The characters that slugs are made of. -/
def isSlugChar (c : Char) : Bool :=
  Unicode.isAlphanumeric c || c == '-' || c == '_'

/-- A lowered text without the characters that a slug loses, and with its spaces replaced. -/
def hyphenated (lowered : List Char) : List Char :=
  (lowered.filter keeps).map fun c => if c = ' ' then '-' else c

theorem hyphenated_append (text more : List Char) :
    hyphenated (text ++ more) = hyphenated text ++ hyphenated more := by
  simp [hyphenated]

theorem ofChars_append {word : List Char} (hword : ∀ c ∈ word, c.toNat < 128)
    (rest : List Char) :
    ofChars (word ++ rest) =
      hyphenated (word.map Char.toLower) ++
        hyphenated (Unicode.lowercaseAfter word.reverse rest) := by
  have hlower := Unicode.lowercaseAfter_append hword [] rest
  rw [List.append_nil] at hlower
  rw [← hyphenated_append, ← hlower]
  rfl

theorem isSlugChar_of_mem_ofChars {text : List Char} {c : Char} (hc : c ∈ ofChars text) :
    isSlugChar c = true := by
  obtain ⟨d, hd, rfl⟩ := List.mem_map.mp hc
  have hkept := (List.mem_filter.mp hd).2
  by_cases hspace : d = ' '
  · simp [isSlugChar, hspace]
  · simpa [keeps, isSlugChar, hspace] using hkept

theorem toNat_lt_of_isNameChar {c : Char} (hc : Text.isNameChar c = true) : c.toNat < 128 := by
  have hrange := Text.toNat_of_isNameChar hc
  omega

/-- The characters of a name are lowered, and none of them is lost. -/
theorem hyphenated_toLower {name : List Char} (hname : ∀ c ∈ name, Text.isNameChar c = true) :
    hyphenated (name.map Char.toLower) = name.map Char.toLower := by
  have hlower : ∀ c : Char, c.toNat < 128 →
      Text.isNameChar c = true → keeps c.toLower = true ∧ c.toLower ≠ ' ' :=
    Unicode.forall_ascii (by decide +kernel)
  have hkept : ∀ c ∈ name.map Char.toLower, keeps c = true ∧ c ≠ ' ' := by
    intro c hc
    obtain ⟨d, hd, rfl⟩ := List.mem_map.mp hc
    exact hlower d (toNat_lt_of_isNameChar (hname d hd)) (hname d hd)
  rw [hyphenated, List.filter_eq_self.mpr fun c hc => (hkept c hc).1]
  exact (List.map_congr_left fun c hc => if_neg (hkept c hc).2).trans (List.map_id _)

end Slug

namespace Kind

/-- What stands in front of the name in the text that an anchor is the slug of. -/
def lead (kind : Kind) : List Char :=
  kind.keyword.toList ++ [' ']

theorem toNat_lt_of_mem_lead (kind : Kind) : ∀ c ∈ kind.lead, c.toNat < 128 := by
  cases kind <;> simp [lead, keyword]

end Kind

namespace Item

/-- An anchor begins with the kind of its item. -/
theorem toList_anchor (item : Item) :
    item.anchor.toList = item.kind.keyword.toList ++ '-' ::
      Slug.hyphenated (Unicode.lowercaseAfter item.kind.lead.reverse item.name.toList) := by
  have htext : (item.kind.keyword ++ " " ++ item.name).toList =
      item.kind.lead ++ item.name.toList := by
    simp [Kind.lead]
  have hlead : Slug.hyphenated (item.kind.lead.map Char.toLower) =
      item.kind.keyword.toList ++ ['-'] := by
    cases item.kind <;> decide +kernel
  rw [anchor, Slug.ofText, String.toList_ofList, htext,
    Slug.ofChars_append item.kind.toNat_lt_of_mem_lead, hlead, List.append_assoc,
    List.singleton_append]

theorem anchor_ne_empty (item : Item) : item.anchor ≠ "" := by
  intro hempty
  have hanchor := item.toList_anchor
  rw [hempty] at hanchor
  cases hkind : item.kind <;> rw [hkind] at hanchor <;> cases hanchor

theorem isSlugChar_of_mem_anchor {item : Item} {c : Char} (hc : c ∈ item.anchor.toList) :
    Slug.isSlugChar c = true := by
  rw [anchor, Slug.ofText, String.toList_ofList] at hc
  exact Slug.isSlugChar_of_mem_ofChars hc

/-- The first letter of an anchor tells the kind of its item. -/
theorem anchor_ne_of_kind_ne {item other : Item} (hkind : item.kind ≠ other.kind) :
    item.anchor ≠ other.anchor := by
  intro hanchor
  have hhead := congrArg (fun anchor : String => anchor.toList.head?) hanchor
  simp only [toList_anchor] at hhead
  cases hfirst : item.kind <;> cases hsecond : other.kind <;>
    rw [hfirst, hsecond] at hhead hkind
  · exact hkind rfl
  · simp [Kind.keyword] at hhead
  · simp [Kind.keyword] at hhead
  · exact hkind rfl

/-- A name over the characters of names stands in its anchor, lowered. -/
theorem toList_anchor_of_name {item : Item}
    (hname : ∀ c ∈ item.name.toList, Text.isNameChar c = true) :
    item.anchor.toList = item.kind.keyword.toList ++ '-' :: item.name.toLower.toList := by
  have hascii : ∀ c ∈ item.name.toList, c.toNat < 128 :=
    fun c hc => Slug.toNat_lt_of_isNameChar (hname c hc)
  have hlower := Unicode.lowercaseAfter_append hascii item.kind.lead.reverse []
  rw [List.append_nil, Unicode.lowercaseAfter, List.append_nil] at hlower
  rw [toList_anchor, hlower, Slug.hyphenated_toLower hname, Text.toList_toLower]

/-- Among such names, an anchor is shared by those that differ in case only. -/
theorem anchor_eq_iff {item other : Item} (hkind : item.kind = other.kind)
    (hname : ∀ c ∈ item.name.toList, Text.isNameChar c = true)
    (hother : ∀ c ∈ other.name.toList, Text.isNameChar c = true) :
    item.anchor = other.anchor ↔ item.name.toLower = other.name.toLower := by
  rw [← String.toList_inj, toList_anchor_of_name hname, toList_anchor_of_name hother, hkind,
    List.append_cancel_left_eq, List.cons.injEq, eq_self, true_and, String.toList_inj]

end Item

end StyleDoc
