import StyleDoc.Proofs.Html.Escaping

/-!
A page cut into its tags. Nothing is known of the page but its characters: a tag begins at `<` and
ends at the next `>`, and what is not in a tag is text. Cutting what was printed finds the tags of
the pieces again, because escaped text has no `<` and escaped values have no `>`. What tags do is
read off their characters as well: how they nest, and which of them agree once the values that
refer to something are left out.
-/

namespace StyleDoc.Html

/-- A sequence cut into tags: what stands in front of the first tag, and then every tag with what
follows it. -/
structure Cut (α : Type) where
  before : List α := []
  tags : List (List α × List α) := []
  deriving DecidableEq, Repr

namespace Cut

variable {α : Type}

/-- A run in front of a sequence that has been cut already. -/
def run (run : List α) (rest : Cut α) : Cut α :=
  { rest with before := run ++ rest.before }

/-- A tag in front of a sequence that has been cut already. -/
def tag (tag : List α) (rest : Cut α) : Cut α :=
  { tags := (tag, rest.before) :: rest.tags }

end Cut

mutual

/-- Cuts text into tags, each from `<` up to the next `>`, and the text between them. -/
def cut : List Char → Cut Char
  | [] => {}
  | c :: rest =>
      if c = '<' then (cutTag rest).2.tag (cutTag rest).1 else (cut rest).run [c]

/-- The tag that has been begun, up to its end, and the cut of the text behind it. -/
def cutTag : List Char → List Char × Cut Char
  | [] => ([], {})
  | c :: rest =>
      if c = '>' then ([], cut rest) else (c :: (cutTag rest).1, (cutTag rest).2)

end

theorem cut_run {text : List Char} (htext : '<' ∉ text) (rest : List Char) :
    cut (text ++ rest) = (cut rest).run text := by
  induction text with
  | nil => rfl
  | cons c text ih =>
      have hc : c ≠ '<' := fun heq => htext (heq ▸ List.mem_cons_self)
      rw [List.cons_append, cut, if_neg hc, ih fun hmem => htext (List.mem_cons_of_mem _ hmem)]
      rfl

theorem cutTag_append {tag : List Char} (htag : '>' ∉ tag) (rest : List Char) :
    cutTag (tag ++ '>' :: rest) = (tag, cut rest) := by
  induction tag with
  | nil => simp [cutTag]
  | cons c tag ih =>
      have hc : c ≠ '>' := fun heq => htag (heq ▸ List.mem_cons_self)
      rw [List.cons_append, cutTag, if_neg hc, ih fun hmem => htag (List.mem_cons_of_mem _ hmem)]

theorem cut_tag {tag : List Char} (htag : '>' ∉ tag) (rest : List Char) :
    cut ('<' :: (tag ++ '>' :: rest)) = (cut rest).tag tag := by
  rw [cut, if_pos rfl, cutTag_append htag]

/-- The tag that a piece is printed as, without its angle brackets. -/
def Piece.tag? : Piece → Option (List Char)
  | .doctype => some "!DOCTYPE html".toList
  | .opening name attributes => some (name.toList ++ attributes.flatMap printAttribute)
  | .closing name => some ('/' :: name.toList)
  | .text _ => none

theorem Piece.print_of_tag? {piece : Piece} {tag : List Char} (htag : piece.tag? = some tag) :
    piece.print = '<' :: (tag ++ ['>']) := by
  unfold Piece.tag? at htag
  split at htag
  · cases htag
    rfl
  · cases htag
    rfl
  · cases htag
    rfl
  · cases htag

theorem Piece.not_mem_print_of_tag?_eq_none {piece : Piece} (htag : piece.tag? = none) :
    '<' ∉ piece.print := by
  cases piece with
  | text content => exact fun hmem => not_isMarkup_of_mem_escapeChars hmem (Or.inl rfl)
  | doctype => cases htag
  | opening name attributes => cases htag
  | closing name => cases htag

/-- The cut of pieces at those that are tags. -/
def cutPieces : List Piece → Cut Char
  | [] => {}
  | piece :: pieces =>
      match piece.tag? with
      | some tag => (cutPieces pieces).tag tag
      | none => (cutPieces pieces).run piece.print

/-- Printed pieces are cut where they were put together. -/
theorem cut_printPieces (pieces : List Piece)
    (hpieces : ∀ piece ∈ pieces, ∀ tag ∈ piece.tag?, '>' ∉ tag) :
    cut (printPieces pieces) = cutPieces pieces := by
  induction pieces with
  | nil => rfl
  | cons piece pieces ih =>
      obtain ⟨hpiece, hrest⟩ := List.forall_mem_cons.mp hpieces
      have hprint : printPieces (piece :: pieces) = piece.print ++ printPieces pieces := rfl
      rw [hprint, cutPieces]
      cases htag : piece.tag? with
      | some tag =>
          rw [Piece.print_of_tag? htag, ← ih hrest, List.cons_append, List.append_assoc]
          exact cut_tag (hpiece tag htag) _
      | none => rw [cut_run (Piece.not_mem_print_of_tag?_eq_none htag), ih hrest]

example : cut "a<b id=\"x\">c".toList =
    { before := ['a'], tags := [("b id=\"x\"".toList, ['c'])] } := by decide +kernel

theorem tags_cutPieces (pieces : List Piece) :
    (cutPieces pieces).tags.map Prod.fst = pieces.filterMap Piece.tag? := by
  induction pieces with
  | nil => rfl
  | cons piece pieces ih =>
      rw [cutPieces, List.filterMap_cons]
      cases piece.tag? with
      | some tag => simpa [Cut.tag] using ih
      | none => simpa [Cut.run] using ih

/-- What is still open after the given tags, the innermost first. The document type and `meta` open
nothing; a closing tag that is not that of the innermost open element is a failure. -/
def stillOpen (opened : List (List Char)) : List (List Char) → Option (List (List Char))
  | [] => some opened
  | tag :: tags =>
      let name := tag.takeWhile (· ≠ ' ')
      if name = "!DOCTYPE".toList ∨ name = "meta".toList then
        stillOpen opened tags
      else
        match tag, opened with
        | '/' :: closed, innermost :: outer =>
            if closed = innermost then stillOpen outer tags else none
        | '/' :: _, [] => none
        | _, opened => stillOpen (name :: opened) tags

/-- All tags are closed, and in the order in which elements nest. -/
def IsNested (tags : List (List Char)) : Prop :=
  stillOpen [] tags = some []

instance : DecidablePred IsNested :=
  fun tags => inferInstanceAs (Decidable (stillOpen [] tags = some []))

/-- A tag cut at its quotation marks, where the text in front of a value tells whose value it is:
values of `id` and of `href` are left out. -/
def leaveOut : List (List Char) → List (List Char)
  | front :: value :: rest =>
      front ::
        (if " id=".toList <:+ front ∨ " href=".toList <:+ front then [] else value) :: leaveOut rest
  | rest => rest

/-- The tag with the values of its `id` and `href` attributes blanked. -/
def blanked (tag : List Char) : List Char :=
  ['"'].intercalate (leaveOut (tag.splitOn '"'))

theorem blanked_of_not_mem {tag : List Char} (htag : '"' ∉ tag) : blanked tag = tag := by
  have hjoined : tag = ['"'].intercalate [tag] := by simp [List.intercalate]
  have hparts : ∀ part ∈ [tag], '"' ∉ part := by simpa using htag
  rw [blanked, hjoined, List.splitOn_intercalate _ hparts (by simp)]
  rfl

/-- Of a tag with one attribute, the value is kept unless it refers to something. -/
theorem blanked_value {front value : List Char} (hfront : '"' ∉ front) (hvalue : '"' ∉ value) :
    blanked (front ++ '"' :: (value ++ ['"'])) =
      front ++ '"' ::
        ((if " id=".toList <:+ front ∨ " href=".toList <:+ front then [] else value) ++ ['"']) := by
  have hjoined : front ++ '"' :: (value ++ ['"']) = ['"'].intercalate [front, value, []] := by
    simp [List.intercalate]
  have hparts : ∀ part ∈ [front, value, []], '"' ∉ part := by simp [hfront, hvalue]
  rw [blanked, hjoined, List.splitOn_intercalate _ hparts (by simp)]
  rfl

end StyleDoc.Html
