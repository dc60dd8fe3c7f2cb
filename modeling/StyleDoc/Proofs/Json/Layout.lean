import StyleDoc.Proofs.Json.Tokens

/-!
The text of a value is read back as that value, and as no other one.
-/

namespace StyleDoc

namespace Json

mutual

/-- What the text of a value stands for. -/
def datum : Json → Datum
  | .null => .null
  | .bool value => .bool value
  | .string text => .string text
  | .array elements => .array (data elements)
  | .object members => .object (memberData members)

def data : List Json → List Datum
  | [] => []
  | element :: rest => element.datum :: data rest

def memberData : List (String × Json) → List (String × Datum)
  | [] => []
  | (name, value) :: rest => (name, value.datum) :: memberData rest

end

theorem data_eq_map (elements : List Json) : data elements = elements.map datum := by
  induction elements with
  | nil => simp [data]
  | cons element rest ih => simp [data, ih]

theorem memberData_eq_map (members : List (String × Json)) :
    memberData members = members.map fun member => (member.1, member.2.datum) := by
  induction members with
  | nil => simp [memberData]
  | cons member rest ih => simp [memberData, ih]

theorem printElements_eq_flatMap (level : Nat) (elements : List Json) :
    printElements level elements =
      elements.flatMap fun element => ',' :: newline level ++ print level element := by
  induction elements with
  | nil => simp [printElements]
  | cons element rest ih => simp [printElements, ih]

theorem printMembers_eq_flatMap (level : Nat) (members : List (String × Json)) :
    printMembers level members =
      members.flatMap fun member => ',' :: newline level ++ printMember level member := by
  induction members with
  | nil => simp [printMembers]
  | cons member rest ih => simp [printMembers, ih]

/-- What is read as an entry starts with a token. -/
def StartsSolid {α : Type} (Entry : List Char → α → List Char → Prop) : Prop :=
  ∀ input entry rest, Entry input entry rest → Solid input

theorem startsSolid_value : StartsSolid Value := by
  intro input value rest hvalue
  cases hvalue with
  | number hliteral hinput => exact hinput ▸ hliteral.solid
  | null => simp [Solid, IsBlank]
  | true => simp [Solid, IsBlank]
  | false => simp [Solid, IsBlank]
  | string => simp [Solid, IsBlank]
  | array => simp [Solid, IsBlank]
  | object => simp [Solid, IsBlank]

theorem startsSolid_member {α : Type} (Entry : List Char → α → List Char → Prop) :
    StartsSolid (Member Entry) := by
  intro input member rest hmember
  cases hmember
  simp [Solid, IsBlank]

/-- Whatever comes after it, the text is read as the given meaning and in no other way. -/
def ReadsAs {α : Type} (Entry : List Char → α → List Char → Prop) (text : List Char)
    (meaning : α) : Prop :=
  ∀ input entry rest, Entry (text ++ input) entry rest ↔ entry = meaning ∧ rest = input

theorem readsAs_null : ReadsAs Value "null".toList .null := by
  intro input value rest
  simp only [String.reduceToList, List.cons_append, List.nil_append]
  constructor
  · intro hvalue
    cases hvalue with
    | null => exact ⟨rfl, rfl⟩
    | number hliteral hinput => exact absurd hinput (hliteral.ne_of_head (by decide))
  · rintro ⟨rfl, rfl⟩
    exact .null _

theorem readsAs_true : ReadsAs Value "true".toList (.bool true) := by
  intro input value rest
  simp only [String.reduceToList, List.cons_append, List.nil_append]
  constructor
  · intro hvalue
    cases hvalue with
    | true => exact ⟨rfl, rfl⟩
    | number hliteral hinput => exact absurd hinput (hliteral.ne_of_head (by decide))
  · rintro ⟨rfl, rfl⟩
    exact .true _

theorem readsAs_false : ReadsAs Value "false".toList (.bool false) := by
  intro input value rest
  simp only [String.reduceToList, List.cons_append, List.nil_append]
  constructor
  · intro hvalue
    cases hvalue with
    | false => exact ⟨rfl, rfl⟩
    | number hliteral hinput => exact absurd hinput (hliteral.ne_of_head (by decide))
  · rintro ⟨rfl, rfl⟩
    exact .false _

theorem readsAs_quoted (text : List Char) :
    ReadsAs Value (quoted text) (.string (String.ofList text)) := by
  intro input value rest
  simp only [quoted, List.cons_append, List.append_assoc, List.nil_append]
  constructor
  · intro hvalue
    cases hvalue with
    | number hliteral hinput => exact absurd hinput (hliteral.ne_of_head (by decide))
    | string htext =>
        obtain ⟨rfl, rfl⟩ := characters_quoted.mp htext
        exact ⟨rfl, rfl⟩
  · rintro ⟨rfl, rfl⟩
    exact .string (characters_quoted.mpr ⟨rfl, rfl⟩)

theorem Listed.head {α : Type} {Entry : List Char → α → List Char → Prop} {close : Char}
    {input rest : List Char} {entries : List α} (hentries : Listed Entry close input entries rest) :
    ∃ entry after, Entry input entry after := by
  cases hentries with
  | last hentry => exact ⟨_, _, hentry⟩
  | more hentry => exact ⟨_, _, hentry⟩

section Listing

variable {α : Type} {Entry : List Char → α → List Char → Prop} {opening close : Char}

theorem readsAs_lastEntry {text : List Char} {meaning : α} (outer : Nat)
    (hentry : ReadsAs Entry text meaning) (hclose : ¬ IsBlank close) (hcomma : close ≠ ',') :
    ReadsAs (Listed Entry close) (text ++ newline outer ++ [close]) [meaning] := by
  intro input entries rest
  simp only [List.append_assoc, List.cons_append, List.nil_append]
  constructor
  · intro hlisted
    cases hlisted with
    | last hfirst hstop =>
        obtain ⟨rfl, rfl⟩ := (hentry _ _ _).mp hfirst
        have hstop := (gap_newline (solid_cons hclose) (solid_cons hclose)).mp hstop
        exact ⟨rfl, (List.cons.inj hstop).2⟩
    | more hfirst hstop =>
        obtain ⟨rfl, rfl⟩ := (hentry _ _ _).mp hfirst
        have hstop := (gap_newline (solid_cons hclose) (solid_cons (by decide))).mp hstop
        exact absurd (List.cons.inj hstop).1.symm hcomma
  · rintro ⟨rfl, rfl⟩
    exact .last ((hentry _ _ _).mpr ⟨rfl, rfl⟩)
      ((gap_newline (solid_cons hclose) (solid_cons hclose)).mpr rfl)

theorem readsAs_moreEntries {text lines : List Char} {meaning : α} {meanings : List α}
    (level : Nat) (hsolid : StartsSolid Entry)
    (hentry : ReadsAs Entry text meaning) (hlines : ReadsAs (Listed Entry close) lines meanings)
    (hcomma : close ≠ ',') :
    ReadsAs (Listed Entry close) (text ++ ',' :: newline level ++ lines)
      (meaning :: meanings) := by
  intro input entries rest
  have hstart : Solid (lines ++ input) := by
    obtain ⟨entry, after, hnext⟩ := ((hlines input _ _).mpr ⟨rfl, rfl⟩).head
    exact hsolid _ _ _ hnext
  simp only [List.append_assoc, List.cons_append]
  constructor
  · intro hlisted
    cases hlisted with
    | last hfirst hstop =>
        obtain ⟨rfl, rfl⟩ := (hentry _ _ _).mp hfirst
        exact absurd (List.cons.inj ((gap_cons (by decide)).mp hstop)).1 hcomma
    | more hfirst hseparator hnext hrest =>
        obtain ⟨rfl, rfl⟩ := (hentry _ _ _).mp hfirst
        obtain ⟨-, rfl⟩ := List.cons.inj ((gap_cons (by decide)).mp hseparator)
        obtain ⟨next, after, hhead⟩ := hrest.head
        obtain rfl := (gap_newline hstart (hsolid _ _ _ hhead)).mp hnext
        obtain ⟨rfl, rfl⟩ := (hlines _ _ _).mp hrest
        exact ⟨rfl, rfl⟩
  · rintro ⟨rfl, rfl⟩
    exact .more ((hentry _ _ _).mpr ⟨rfl, rfl⟩) ((gap_cons (by decide)).mpr rfl)
      ((gap_newline hstart hstart).mpr rfl) ((hlines _ _ _).mpr ⟨rfl, rfl⟩)

/-- The lines of a list are read back as the meanings of its entries. -/
theorem readsAs_listed {β : Type} {write : β → List Char} {meaning : β → α} (level outer : Nat)
    (hsolid : StartsSolid Entry)
    (hclose : ¬ IsBlank close) (hcomma : close ≠ ',') (first : β) (more : List β)
    (hentries : ∀ entry ∈ first :: more, ReadsAs Entry (write entry) (meaning entry)) :
    ReadsAs (Listed Entry close)
      (write first ++ more.flatMap (fun entry => ',' :: newline level ++ write entry) ++
        newline outer ++ [close])
      ((first :: more).map meaning) := by
  induction more generalizing first with
  | nil =>
      simpa using readsAs_lastEntry outer (hentries first (List.mem_cons_self ..)) hclose hcomma
  | cons second more ih =>
      have hmore := ih second fun entry hentry => hentries entry (List.mem_cons_of_mem _ hentry)
      have hlines := readsAs_moreEntries level hsolid (hentries first (List.mem_cons_self ..))
        hmore hcomma
      simpa using hlines

theorem readsAs_empty (hclose : ¬ IsBlank close)
    (hstop : ∀ input rest entry, ¬ Entry (close :: input) entry rest) :
    ReadsAs (Enclosed Entry opening close) [opening, close] [] := by
  intro input entries rest
  simp only [List.cons_append, List.nil_append]
  constructor
  · intro hread
    cases hread with
    | empty hend =>
        obtain ⟨-, rfl⟩ := List.cons.inj ((gap_cons hclose).mp hend)
        exact ⟨rfl, rfl⟩
    | listed hopen hentries =>
        obtain ⟨entry, after, hentry⟩ := hentries.head
        rw [(gap_cons hclose).mp hopen] at hentry
        exact absurd hentry (hstop _ _ _)
  · rintro ⟨rfl, rfl⟩
    exact .empty ((gap_cons hclose).mpr rfl)

/-- A list that has entries starts on a line of its own. -/
theorem readsAs_enclosed {lines : List Char} {meanings : List α} (level : Nat)
    (hsolid : StartsSolid Entry) (hclose : ¬ IsBlank close)
    (hstop : ∀ input rest entry, ¬ Entry (close :: input) entry rest)
    (hlines : ReadsAs (Listed Entry close) lines meanings) :
    ReadsAs (Enclosed Entry opening close) (opening :: newline level ++ lines) meanings := by
  intro input entries rest
  have hread := (hlines input _ _).mpr ⟨rfl, rfl⟩
  obtain ⟨first, after, hfirst⟩ := hread.head
  have hstart := hsolid _ _ _ hfirst
  simp only [List.cons_append, List.append_assoc]
  constructor
  · intro hread
    cases hread with
    | empty hend =>
        have hend := (gap_newline hstart (solid_cons hclose)).mp hend
        exact absurd (hend ▸ hfirst) (hstop _ _ _)
    | listed hopen hentries =>
        obtain ⟨entry, after, hentry⟩ := hentries.head
        obtain rfl := (gap_newline hstart (hsolid _ _ _ hentry)).mp hopen
        obtain ⟨rfl, rfl⟩ := (hlines _ _ _).mp hentries
        exact ⟨rfl, rfl⟩
  · rintro ⟨rfl, rfl⟩
    exact .listed ((gap_newline hstart hstart).mpr rfl) hread

end Listing

theorem readsAs_member {α : Type} {Entry : List Char → α → List Char → Prop}
    {text : List Char} {meaning : α} (hsolid : StartsSolid Entry) (name : List Char)
    (hentry : ReadsAs Entry text meaning) :
    ReadsAs (Member Entry) (quoted name ++ ':' :: ' ' :: text) (String.ofList name, meaning) := by
  intro input member rest
  have hstart : Solid (text ++ input) := hsolid _ _ _ ((hentry input _ _).mpr ⟨rfl, rfl⟩)
  have hblank : ∀ c ∈ [' '], IsBlank c := by simp [IsBlank]
  simp only [quoted, List.append_assoc, List.cons_append, List.nil_append]
  constructor
  · intro hmember
    cases hmember with
    | intro hname hcolon hnext hvalue =>
        obtain ⟨rfl, rfl⟩ := characters_quoted.mp hname
        obtain ⟨-, rfl⟩ := List.cons.inj ((gap_cons (by decide)).mp hcolon)
        obtain rfl := (gap_blanks hblank hstart (hsolid _ _ _ hvalue)).mp hnext
        obtain ⟨rfl, rfl⟩ := (hentry _ _ _).mp hvalue
        exact ⟨rfl, rfl⟩
  · rintro ⟨rfl, rfl⟩
    exact .intro (characters_quoted.mpr ⟨rfl, rfl⟩) ((gap_cons (by decide)).mpr rfl)
      ((gap_blanks hblank hstart hstart).mpr rfl) ((hentry _ _ _).mpr ⟨rfl, rfl⟩)

theorem readsAs_array {text : List Char} {elements : List Datum}
    (htext : ReadsAs (Enclosed Value '[' ']') ('[' :: text) elements) :
    ReadsAs Value ('[' :: text) (.array elements) := by
  intro input value rest
  rw [List.cons_append]
  constructor
  · intro hvalue
    cases hvalue with
    | number hliteral hinput => exact absurd hinput (hliteral.ne_of_head (by decide))
    | array helements =>
        obtain ⟨rfl, rfl⟩ := (htext _ _ _).mp helements
        exact ⟨rfl, rfl⟩
  · rintro ⟨rfl, rfl⟩
    exact .array ((htext _ _ _).mpr ⟨rfl, rfl⟩)

theorem readsAs_object {text : List Char} {members : List (String × Datum)}
    (htext : ReadsAs (Enclosed (Member Value) '{' '}') ('{' :: text) members) :
    ReadsAs Value ('{' :: text) (.object members) := by
  intro input value rest
  rw [List.cons_append]
  constructor
  · intro hvalue
    cases hvalue with
    | number hliteral hinput => exact absurd hinput (hliteral.ne_of_head (by decide))
    | object hmembers =>
        obtain ⟨rfl, rfl⟩ := (htext _ _ _).mp hmembers
        exact ⟨rfl, rfl⟩
  · rintro ⟨rfl, rfl⟩
    exact .object ((htext _ _ _).mpr ⟨rfl, rfl⟩)

theorem not_value_bracket (input rest : List Char) (value : Datum) :
    ¬ Value (']' :: input) value rest := by
  intro hvalue
  cases hvalue with
  | number hliteral hinput => exact hliteral.ne_of_head (by decide) hinput

theorem not_member_brace (input rest : List Char) (member : String × Datum) :
    ¬ Member Value ('}' :: input) member rest := by
  intro hmember
  cases hmember

/-- The text of a value is read as that value, at every level and before every text. -/
theorem readsAs_print (level : Nat) :
    ∀ json : Json, ReadsAs Value (print level json) json.datum
  | .null => by
      simpa only [print, datum] using readsAs_null
  | .bool true => by
      simpa only [print, datum] using readsAs_true
  | .bool false => by
      simpa only [print, datum] using readsAs_false
  | .string text => by
      simpa only [print, datum, String.ofList_toList] using readsAs_quoted text.toList
  | .array [] => by
      simpa only [print, datum, data, String.reduceToList] using
        readsAs_array (readsAs_empty (by decide) not_value_bracket)
  | .array (first :: more) => by
      have hread : ∀ element ∈ first :: more,
          ReadsAs Value (print (level + 1) element) element.datum :=
        fun element helement => readsAs_print (level + 1) element
      have hclose : ¬ IsBlank ']' := by decide
      have hlines := readsAs_listed (level + 1) level startsSolid_value hclose (by decide)
        first more hread
      have harray := readsAs_array <|
        readsAs_enclosed (level + 1) startsSolid_value hclose not_value_bracket hlines
      simpa [print, datum, data_eq_map, printElements_eq_flatMap] using harray
  | .object [] => by
      simpa only [print, datum, memberData, String.reduceToList] using
        readsAs_object (readsAs_empty (by decide) not_member_brace)
  | .object (first :: more) => by
      have hread : ∀ member ∈ first :: more,
          ReadsAs (Member Value) (printMember (level + 1) member) (member.1, member.2.datum) := by
        intro member hmember
        have hvalue := readsAs_print (level + 1) member.2
        obtain ⟨name, value⟩ := member
        simpa only [printMember, String.ofList_toList] using
          readsAs_member startsSolid_value name.toList hvalue
      have hclose : ¬ IsBlank '}' := by decide
      have hlines := readsAs_listed (level + 1) level (startsSolid_member Value) hclose
        (by decide) first more hread
      have hobject := readsAs_object <|
        readsAs_enclosed (level + 1) (startsSolid_member Value) hclose not_member_brace hlines
      simpa [print, datum, memberData_eq_map, printMembers_eq_flatMap] using hobject
termination_by json => sizeOf json
decreasing_by
  · have hsize := List.sizeOf_lt_of_mem helement
    simp only [Json.array.sizeOf_spec]
    omega
  · have hsize := List.sizeOf_lt_of_mem hmember
    obtain ⟨name, value⟩ := member
    simp only [Json.object.sizeOf_spec, Prod.mk.sizeOf_spec] at hsize ⊢
    omega

/-- A line with the text of a value is a text of that value and of no other one. -/
theorem isText_print (json : Json) (value : Datum) :
    IsText (print 0 json ++ ['\n']) value ↔ value = json.datum := by
  have hread := readsAs_print 0 json ['\n']
  have hprint := (hread _ _).mpr ⟨rfl, rfl⟩
  have hsolid := startsSolid_value _ _ _ hprint
  constructor
  · rintro ⟨start, stop, hstart, hvalue, -⟩
    obtain rfl := (gap_solid hsolid).mp hstart
    exact ((hread _ _).mp hvalue).1
  · rintro rfl
    exact ⟨_, _, (gap_solid hsolid).mpr rfl, hprint, ['\n'], by simp [IsBlank], rfl⟩

end Json

end StyleDoc
