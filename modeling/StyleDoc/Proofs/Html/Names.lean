import StyleDoc.Html.Page

/-!
The names of the elements that a page is put together from. Each part of a page has elements of a
few names only, whatever texts it shows.
-/

namespace StyleDoc.Html

variable {pieces more : List Piece}

def Piece.name? : Piece → Option String
  | .opening name _ => some name
  | _ => none

/-- The names of the elements among pieces, in the order of their opening tags. -/
def names (pieces : List Piece) : List String :=
  pieces.filterMap Piece.name?

@[simp]
theorem names_nil : names [] = [] :=
  rfl

@[simp]
theorem names_append : names (pieces ++ more) = names pieces ++ names more :=
  List.filterMap_append

@[simp]
theorem names_text (text : String) : names (.text text :: pieces) = names pieces :=
  rfl

@[simp]
theorem names_opening (name : String) (attributes : List (String × String)) :
    names (.opening name attributes :: pieces) = name :: names pieces :=
  rfl

@[simp]
theorem names_closing (name : String) : names (.closing name :: pieces) = names pieces :=
  rfl

@[simp]
theorem names_doctype : names (.doctype :: pieces) = names pieces :=
  rfl

@[simp]
theorem names_flatMap {α : Type} (printed : α → List Piece) (entries : List α) :
    names (entries.flatMap printed) = entries.flatMap fun entry => names (printed entry) :=
  List.filterMap_flatMap

@[simp]
theorem names_element (name : String) (attributes : List (String × String)) :
    names (element name attributes pieces) = name :: names pieces := by
  simp [element]

@[simp]
theorem names_textElement (name text : String) : names (textElement name text) = [name] :=
  rfl

@[simp]
theorem names_lineEnd : names lineEnd = [] :=
  rfl

@[simp]
theorem names_indented : names (indented pieces) = names pieces := by
  simp [indented]

@[simp]
theorem names_block (name : String) : names (block name pieces) = name :: names pieces := by
  simp [block]

@[simp]
theorem names_line (name : String) (attributes : List (String × String)) :
    names (line name attributes pieces) = name :: names pieces := by
  simp [line]

@[simp]
theorem names_code (text : String) : names (code text) = ["code"] :=
  rfl

@[simp]
theorem names_kindMark (kind : Kind) : names (kindMark kind) = ["span"] :=
  rfl

theorem names_flatMap_subset {α : Type} {printed : α → List Piece} {entries : List α}
    {allowed : List String} (hentries : ∀ entry ∈ entries, names (printed entry) ⊆ allowed) :
    names (entries.flatMap printed) ⊆ allowed := by
  rw [names_flatMap]
  intro name hname
  obtain ⟨entry, hentry, hname⟩ := List.mem_flatMap.mp hname
  exact hentries entry hentry hname

theorem names_titleLine_subset (name title : String) : names (titleLine name title) ⊆ [name] := by
  unfold titleLine
  split <;> simp

theorem names_head_subset (title : String) :
    names (head title) ⊆ ["head", "meta", "title", "style"] := by
  have htitle : names (titleLine "title" title) ⊆ ["meta", "title", "style"] :=
    List.Subset.trans (names_titleLine_subset "title" title) (by simp)
  have hstyle : names (styleLines.flatMap fun text => .text text :: lineEnd) ⊆ [] :=
    names_flatMap_subset fun text _ => by simp
  rw [List.subset_nil] at hstyle
  simp [head, hstyle, htitle]

theorem names_index_subset (items : List Item) :
    names (index items) ⊆ ["h2", "ul", "li", "a", "span"] := by
  have hentries : names (items.flatMap indexEntry) ⊆ ["li", "a", "span"] :=
    names_flatMap_subset fun item _ => by simp [indexEntry]
  unfold index
  split
  · simp
  · rw [names_append, names_line, names_block]
    exact List.cons_subset_cons _ (List.cons_subset_cons _ hentries)

theorem names_deprecation_subset (value : Deprecation) :
    names (deprecation value) ⊆ ["p", "strong"] := by
  cases value <;> simp [deprecation]

theorem names_access_subset (level : String) : names (access level) ⊆ ["p", "em"] := by
  unfold access
  split <;> simp

theorem names_description_subset (text : String) : names (description text) ⊆ ["p"] := by
  unfold description
  split <;> simp

theorem names_parameterRow_subset (parameter : Parameter) :
    names (parameterRow parameter) ⊆ ["tr", "td", "code"] := by
  unfold parameterRow
  split <;> simp

theorem names_parameterRows_subset (parameters : List Parameter) :
    names (parameterHeader ++ parameters.flatMap parameterRow) ⊆ ["tr", "th", "td", "code"] := by
  rw [names_append, List.append_subset]
  constructor
  · simp [parameterHeader]
  · exact names_flatMap_subset fun row _ =>
      List.Subset.trans (names_parameterRow_subset row) (by simp)

theorem names_alternatives_subset (types : List String) :
    names (alternatives types) ⊆ ["code"] := by
  induction types with
  | nil => simp [alternatives]
  | cons type types ih =>
      cases types with
      | nil => simp [alternatives]
      | cons => simpa [alternatives] using ih

theorem names_textEntries_subset (texts : List String) :
    ∀ entry ∈ textEntries texts, names entry ⊆ ["a"] := by
  intro entry hentry
  obtain ⟨text, -, rfl⟩ := List.mem_map.mp hentry
  simp

theorem names_linkEntries_subset (links : List Link) :
    ∀ entry ∈ links.map linkEntry, names entry ⊆ ["a"] := by
  intro entry hentry
  obtain ⟨link, -, rfl⟩ := List.mem_map.mp hentry
  simp [linkEntry]

theorem names_entries_subset {entries : List (List Piece)}
    (hentries : ∀ entry ∈ entries, names entry ⊆ ["a"]) :
    names (entries.flatMap fun entry => indented (element "li" [] entry)) ⊆ ["li", "a"] := by
  refine names_flatMap_subset fun entry hentry => ?_
  rw [names_indented, names_element]
  exact List.cons_subset_cons "li" (hentries entry hentry)

theorem names_author_subset (name : Option String) : names (author name) ⊆ ["p", "small"] := by
  cases name <;> simp [author]

theorem names_parameterTable_subset (parameters : List Parameter) :
    names (parameterTable parameters) ⊆ ["h4", "table", "tr", "th", "td", "code"] := by
  unfold parameterTable
  split
  · simp
  · rw [names_append, names_line, names_block]
    exact List.cons_subset_cons _
      (List.cons_subset_cons _ (names_parameterRows_subset parameters))

theorem names_returns_subset (value : Return) : names (returns value) ⊆ ["h4", "p", "code"] := by
  unfold returns
  split
  · simp
  · rename_i types _
    have hnothing : ["code"] ⊆ ["h4", "p", "code"] := by simp
    have halternatives := List.Subset.trans (names_alternatives_subset types) hnothing
    dsimp only
    split
    · split <;> simpa using halternatives
    · simpa using halternatives

theorem names_titledList_subset {title : String} {entries : List (List Piece)}
    (hentries : ∀ entry ∈ entries, names entry ⊆ ["a"]) :
    names (titledList title entries) ⊆ ["h4", "ul", "li", "a"] := by
  unfold titledList
  split
  · simp
  · rw [names_append, names_line, names_block]
    exact List.cons_subset_cons _ (List.cons_subset_cons _ (names_entries_subset hentries))

end StyleDoc.Html
