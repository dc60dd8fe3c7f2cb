import Mathlib.Logic.ExistsUnique
import StyleDoc.Json.Record
import StyleDoc.Proofs.Json.Layout

/-!
Items are read back from their JSON. The readers follow the shape of a record: false where an
author, a description or a deprecation is missing, and null where types, a default or a caption
are.
-/

namespace StyleDoc

namespace Json

namespace Datum

def string? : Datum → Option String
  | .string text => some text
  | _ => none

def stringOrFalse? : Datum → Option (Option String)
  | .string text => some (some text)
  | .bool false => some none
  | _ => none

/-- What the reader gives, or nothing where the value is null. -/
def orNull? {α : Type} (read : Datum → Option α) : Datum → Option (Option α)
  | .null => some none
  | value => (read value).map some

def list? {α : Type} (read : Datum → Option α) : Datum → Option (List α)
  | .array elements => elements.mapM read
  | _ => none

/-- The value of the only member with the given name. -/
def member? (name : String) : Datum → Option Datum
  | .object members =>
      match members.filter fun member => member.1 = name with
      | [member] => some member.2
      | _ => none
  | _ => none

def deprecation? : Datum → Option Deprecation
  | .bool false => some .current
  | .bool true => some .deprecated
  | .string reason => some (.because reason)
  | _ => none

def return? (value : Datum) : Option Return := do
  let types ← orNull? (list? string?) (← member? "type" value)
  let description ← stringOrFalse? (← member? "description" value)
  return { types, description }

def parameter? (value : Datum) : Option Parameter := do
  let type ← string? (← member? "type" value)
  let name ← string? (← member? "name" value)
  let default ← orNull? string? (← member? "default" value)
  let description ← string? (← member? "description" value)
  return { type, name, default, description }

def link? (value : Datum) : Option Link := do
  let url ← string? (← member? "url" value)
  let caption ← orNull? string? (← member? "caption" value)
  return { url, caption }

def item? (value : Datum) : Option Item := do
  let kind ← Kind.ofKeyword? (← string? (← member? "type" value))
  let name ← string? (← member? "name" value)
  let description ← string? (← member? "description" value)
  let access ← string? (← member? "access" value)
  let deprecation ← deprecation? (← member? "deprecated" value)
  let author ← stringOrFalse? (← member? "author" value)
  let returns ← return? (← member? "return" value)
  let parameters ← list? parameter? (← member? "parameters" value)
  let throws ← list? string? (← member? "throws" value)
  let todos ← list? string? (← member? "todos" value)
  let aliases ← list? string? (← member? "alias" value)
  let links ← list? link? (← member? "link" value)
  return { kind, name, description, access, deprecated := deprecation, author, returns,
           parameters, throws, todos, aliases, links }

end Datum

open Datum

@[simp]
theorem string?_string (text : String) : string? (.string text) = some text :=
  rfl

@[simp]
theorem stringOrFalse?_datum (text : Option String) :
    stringOrFalse? (stringOrFalse text).datum = some text := by
  cases text <;> simp only [stringOrFalse, datum, stringOrFalse?]

@[simp]
theorem orNull?_datum (text : Option String) :
    orNull? string? (stringOrNull text).datum = some text := by
  cases text <;> simp [stringOrNull, datum, orNull?]

@[simp]
theorem deprecation?_datum (deprecation : Deprecation) :
    deprecation? (ofDeprecation deprecation).datum = some deprecation := by
  cases deprecation <;> simp only [ofDeprecation, datum, deprecation?]

/-- A list is read back if each of its elements is. -/
theorem list?_data {α : Type} {read : Datum → Option α} {write : α → Json}
    (hread : ∀ element, read (write element).datum = some element) (elements : List α) :
    list? read (.array (data (elements.map write))) = some elements := by
  induction elements with
  | nil => rfl
  | cons element rest ih =>
      simp only [list?, List.map_cons, data, List.mapM_cons, hread] at ih ⊢
      simp [ih]

@[simp]
theorem list?_strings (texts : List String) :
    list? string? (strings texts).datum = some texts := by
  simp only [strings, datum]
  exact list?_data (fun text => by simp only [datum, string?]) texts

@[simp]
theorem return?_datum (returns : Return) : return? (ofReturn returns).datum = some returns := by
  obtain ⟨types, description⟩ := returns
  cases types with
  | none => simp [return?, ofReturn, datum, memberData, member?, orNull?]
  | some types =>
      have htypes : orNull? (list? string?) (strings types).datum = some (some types) := by
        have hstrings := list?_strings types
        simp only [strings, datum] at hstrings
        simp only [strings, datum, orNull?, hstrings, Option.map_some]
      simp [return?, ofReturn, datum, memberData, member?, htypes]

theorem parameter?_datum (parameter : Parameter) :
    parameter? (ofParameter parameter).datum = some parameter := by
  simp [parameter?, ofParameter, datum, memberData, member?]

theorem link?_datum (link : Link) : link? (ofLink link).datum = some link := by
  simp [link?, ofLink, datum, memberData, member?]

theorem item?_datum (item : Item) : item? (ofItem item).datum = some item := by
  simp [item?, ofItem, datum, memberData, member?, list?_data parameter?_datum,
    list?_data link?_datum, Kind.ofKeyword?_keyword]

/-- The records of a text, one for each element of its list. -/
def items? (value : Datum) : Option (List Item) :=
  list? item? value

/-- A page is a text of exactly one value, its items are read back from that value, and items
that differ have pages that differ. -/
theorem page_lossless (document : Document) :
    (∃! value, IsText (page document).toList value) ∧
      (∀ value, IsText (page document).toList value → items? value = some document.items) ∧
      ∀ other : Document, page other = page document → other.items = document.items := by
  have hpage : ∀ document : Document, ∀ value, IsText (page document).toList value ↔
      value = (Json.array (document.items.map ofItem)).datum := by
    intro document value
    simp only [page, String.toList_ofList, isText_print]
  have hitems : ∀ document : Document,
      items? (Json.array (document.items.map ofItem)).datum = some document.items := by
    intro document
    simpa only [items?, datum] using list?_data item?_datum document.items
  refine ⟨⟨_, (hpage document _).mpr rfl, fun value => (hpage document value).mp⟩, ?_, ?_⟩
  · intro value hvalue
    rw [(hpage document value).mp hvalue, hitems]
  · intro other hother
    have hvalue := (hpage other _).mpr rfl
    rw [hother, hpage] at hvalue
    exact Option.some.inj (by rw [← hitems, hvalue, hitems])

end Json

end StyleDoc
