import StyleDoc.Format
import StyleDoc.Proofs.Html.Escaping
import StyleDoc.Proofs.Text.Lines

/-!
What the title of a document adds to its page. A page in JSON does not show the title. In Markdown it
is a heading in front of the page, and in HTML it is given in one line of the head and in one at the
start of the body; all other lines are those of the page without a title.
-/

namespace StyleDoc

namespace Text

/-- The lines with one more behind the first of them that is the given one. -/
def insertAfter (mark line : List Char) : List (List Char) → List (List Char)
  | [] => []
  | first :: rest =>
      if first = mark then first :: line :: rest else first :: insertAfter mark line rest

/-- The text with a line put behind the first line that is the given one. -/
def insertLine (mark line text : String) : String :=
  String.ofList
    (['\n'].intercalate (insertAfter mark.toList line.toList (text.toList.splitOn '\n')))

theorem insertAfter_append {mark line : List Char} {front back : List (List Char)}
    (hmark : mark ∉ front) :
    insertAfter mark line (front ++ mark :: back) = front ++ mark :: line :: back := by
  induction front with
  | nil => exact if_pos rfl
  | cons first front ih =>
      obtain ⟨hne, hfront⟩ := List.ne_and_not_mem_of_not_mem_cons hmark
      rw [List.cons_append, insertAfter, if_neg hne.symm, ih hfront, List.cons_append]

theorem toList_unlines_cons (line : String) (front : List String) :
    (unlines (line :: front)).toList = line.toList ++ '\n' :: (unlines front).toList := by
  simp [unlines]

theorem unlines_append (front back : List String) :
    unlines (front ++ back) = unlines front ++ unlines back := by
  simp [unlines, String.ofList_append]

/-- Whole lines in front of a text are cut off one by one. -/
theorem splitOn_unlines (front : List String) (back : List Char) :
    ((unlines front).toList ++ back).splitOn '\n' =
      (front.flatMap fun line => line.toList.splitOn '\n') ++ back.splitOn '\n' := by
  induction front with
  | nil => simp [unlines]
  | cons line front ih =>
      rw [toList_unlines_cons, List.append_assoc, List.cons_append,
        List.splitOn_append_cons_self, ih, List.flatMap_cons, List.append_assoc]

theorem intercalate_append {α : Type} (separator : List α) {front back : List (List α)}
    (hfront : front ≠ []) (hback : back ≠ []) :
    separator.intercalate (front ++ back) =
      separator.intercalate front ++ separator ++ separator.intercalate back := by
  induction front with
  | nil => exact absurd rfl hfront
  | cons first front ih =>
      by_cases hrest : front = []
      · rw [hrest, List.singleton_append, List.intercalate_cons_of_ne_nil hback,
          List.intercalate_singleton]
      · rw [List.cons_append, List.intercalate_cons_of_ne_nil (by simp [hrest]), ih hrest,
          List.intercalate_cons_of_ne_nil hrest]
        simp only [List.append_assoc]

theorem intercalate_unlines (front : List String) {back : List (List Char)} (hback : back ≠ []) :
    ['\n'].intercalate ((front.flatMap fun line => line.toList.splitOn '\n') ++ back) =
      (unlines front).toList ++ ['\n'].intercalate back := by
  induction front with
  | nil => simp [unlines]
  | cons line front ih =>
      rw [List.flatMap_cons, List.append_assoc,
        intercalate_append _ (List.splitOn_ne_nil _ _) (by simp [hback]), ih,
        List.intercalate_splitOn, toList_unlines_cons]
      simp

/-- The line comes behind the first one that is the given one. -/
theorem insertLine_unlines {front : List String} {mark : String} (line back : String)
    (hunbroken : '\n' ∉ mark.toList)
    (hmark : ∀ text ∈ front, mark.toList ∉ text.toList.splitOn '\n') :
    insertLine mark line (unlines (front ++ [mark]) ++ back) =
      unlines (front ++ [mark, line]) ++ back := by
  have hfirst : mark.toList ∉ front.flatMap fun line => line.toList.splitOn '\n' := by
    rw [List.mem_flatMap]
    rintro ⟨text, htext, hmem⟩
    exact hmark text htext hmem
  have hne : back.toList.splitOn '\n' ≠ [] := List.splitOn_ne_nil _ _
  have hcut : (unlines (front ++ [mark]) ++ back).toList.splitOn '\n' =
      (front.flatMap fun line => line.toList.splitOn '\n') ++
        mark.toList :: back.toList.splitOn '\n' := by
    rw [String.toList_append, splitOn_unlines, List.flatMap_append, List.flatMap_singleton,
      List.splitOn_eq_singleton hunbroken, List.append_assoc, List.singleton_append]
  rw [insertLine, hcut, insertAfter_append hfirst, intercalate_unlines _ (by simp),
    List.intercalate_cons_cons, List.intercalate_cons_of_ne_nil hne, List.intercalate_splitOn]
  apply String.toList_inj.mp
  simp [unlines]

example : insertLine "b" "new" "a\nb\nb\n" = "a\nb\nnew\nb\n" := by decide +kernel

end Text

namespace Html

/-- The lines of a page before its title. -/
def openingLines : List String :=
  ["<!DOCTYPE html>", "<html>", "<head>", "<meta charset=\"utf-8\">"]

/-- The lines of a page between its title and its heading. -/
def middleLines : List String :=
  "<style>" :: styleLines.map escape ++ ["</style>", "</head>"]

/-- What follows the heading of a page. -/
def restOfPage (items : List Item) : String :=
  String.ofList (printPieces (index items ++ items.flatMap itemPieces ++
    .closing "body" :: lineEnd ++ .closing "html" :: lineEnd))

/-- A line that repeats a title. -/
def titleText (name title : String) : String :=
  ("<" ++ name ++ ">") ++ escape title ++ ("</" ++ name ++ ">")

theorem printPieces_append (pieces more : List Piece) :
    printPieces (pieces ++ more) = printPieces pieces ++ printPieces more :=
  List.flatMap_append

theorem titleText_title (title : String) :
    titleText "title" title = "<title>" ++ escape title ++ "</title>" := by
  have hopening : "<" ++ "title" ++ ">" = "<title>" := by decide
  have hclosing : "</" ++ "title" ++ ">" = "</title>" := by decide
  rw [titleText, hopening, hclosing]

theorem titleText_h1 (title : String) :
    titleText "h1" title = "<h1>" ++ escape title ++ "</h1>" := by
  have hopening : "<" ++ "h1" ++ ">" = "<h1>" := by decide
  have hclosing : "</" ++ "h1" ++ ">" = "</h1>" := by decide
  rw [titleText, hopening, hclosing]

theorem toList_titleText (name title : String) :
    (titleText name title).toList =
      '<' :: name.toList ++ '>' :: escapeChars title.toList ++
        '<' :: '/' :: name.toList ++ ['>'] := by
  simp only [titleText, escape, String.toList_append, String.toList_ofList, List.append_assoc]
  rfl

theorem print_opening (name : String) :
    Piece.print (.opening name []) = '<' :: name.toList ++ ['>'] := by
  change '<' :: name.toList ++ [] ++ ['>'] = _
  rw [List.append_nil]

theorem printPieces_textElement (name title : String) :
    printPieces (textElement name title) = (titleText name title).toList := by
  have hclosing : Piece.print (.closing name) = '<' :: '/' :: name.toList ++ ['>'] := rfl
  have htext : Piece.print (.text title) = escapeChars title.toList := rfl
  have hpieces : textElement name title = [.opening name [], .text title, .closing name] := rfl
  rw [toList_titleText, hpieces, printPieces, List.flatMap_cons, List.flatMap_cons,
    List.flatMap_cons, List.flatMap_nil, print_opening, htext, hclosing]
  simp only [List.append_assoc, List.cons_append, List.nil_append, List.append_nil]

theorem printPieces_titleLine (name : String) {title : String} (htitle : title ≠ "") :
    String.ofList (printPieces (titleLine name title)) = Text.unlines [titleText name title] := by
  have hend : printPieces lineEnd = ['\n'] := by decide +kernel
  have hline : titleLine name title = textElement name title ++ lineEnd := if_neg htitle
  rw [hline, printPieces_append, printPieces_textElement, hend, Text.unlines, List.flatMap_singleton]

theorem printPieces_texts (texts : List String) :
    printPieces (texts.flatMap fun text => .text text :: lineEnd) =
      (Text.unlines (texts.map escape)).toList := by
  have hend : printPieces lineEnd = ['\n'] := by decide +kernel
  induction texts with
  | nil => simp [printPieces, Text.unlines]
  | cons text texts ih =>
      have htext : printPieces (.text text :: lineEnd) = escapeChars text.toList ++ ['\n'] := by
        rw [← hend]
        rfl
      rw [List.flatMap_cons, printPieces_append, htext, ih, List.map_cons,
        Text.toList_unlines_cons, escape, String.toList_ofList, List.append_assoc,
        List.singleton_append]

/-- The two lines that repeat the title stand behind lines that are the same for every page. -/
theorem page_eq (document : Document) :
    page document =
      Text.unlines openingLines ++ (String.ofList (printPieces (titleLine "title" document.title)) ++
        (Text.unlines (middleLines ++ ["<body>"]) ++
          (String.ofList (printPieces (titleLine "h1" document.title)) ++
            restOfPage document.items))) := by
  have hopening : printPieces [.doctype, .text "\n", .opening "html" [], .text "\n",
      .opening "head" [], .text "\n", .opening "meta" [("charset", "utf-8")], .text "\n"] =
        (Text.unlines openingLines).toList := by
    decide +kernel
  have hmiddle : printPieces (block "style" (styleLines.flatMap fun text => .text text :: lineEnd) ++
      [.closing "head", .text "\n", .opening "body" [], .text "\n"]) =
        (Text.unlines (middleLines ++ ["<body>"])).toList := by
    have hstyle : printPieces [.opening "style" [], .text "\n"] =
        (Text.unlines ["<style>"]).toList := by
      decide +kernel
    have hrest : printPieces [.closing "style", .text "\n", .closing "head", .text "\n",
        .opening "body" [], .text "\n"] =
          (Text.unlines ["</style>", "</head>", "<body>"]).toList := by
      decide +kernel
    have hblock : block "style" (styleLines.flatMap fun text => .text text :: lineEnd) ++
        [.closing "head", .text "\n", .opening "body" [], .text "\n"] =
          [.opening "style" [], .text "\n"] ++
            ((styleLines.flatMap fun text => .text text :: lineEnd) ++
              [.closing "style", .text "\n", .closing "head", .text "\n", .opening "body" [],
                .text "\n"]) := by
      simp [block, element, lineEnd]
    have hlines : middleLines ++ ["<body>"] =
        ["<style>"] ++ (styleLines.map escape ++ ["</style>", "</head>", "<body>"]) := by
      simp [middleLines]
    rw [hblock, hlines, printPieces_append, printPieces_append, hstyle, hrest, printPieces_texts,
      Text.unlines_append, Text.unlines_append, String.toList_append, String.toList_append]
  have hpieces : pagePieces document =
      [.doctype, .text "\n", .opening "html" [], .text "\n",
        .opening "head" [], .text "\n", .opening "meta" [("charset", "utf-8")], .text "\n"] ++
      (titleLine "title" document.title ++
      ((block "style" (styleLines.flatMap fun text => .text text :: lineEnd) ++
        [.closing "head", .text "\n", .opening "body" [], .text "\n"]) ++
      (titleLine "h1" document.title ++ (index document.items ++
        document.items.flatMap itemPieces ++
          .closing "body" :: lineEnd ++ .closing "html" :: lineEnd)))) := by
    simp [pagePieces, head, body, block, element, lineEnd]
  rw [page, hpieces, printPieces_append, printPieces_append, printPieces_append,
    printPieces_append (titleLine "h1" document.title), hopening, hmiddle]
  simp only [String.ofList_append, String.ofList_toList]
  rfl

/-- A text that is escaped has no line that starts a tag. -/
theorem not_mem_splitOn_escape {mark : List Char} (hmark : '<' ∈ mark) (text : String) :
    mark ∉ (escape text).toList.splitOn '\n' := by
  intro hmem
  have hescaped := (Text.not_mem_and_subset_of_mem_splitOn hmem).2 hmark
  rw [escape, String.toList_ofList] at hescaped
  exact not_isMarkup_of_mem_escapeChars hescaped (Or.inl rfl)

theorem page_untitled (items : List Item) :
    page { items } =
      Text.unlines ((openingLines ++ middleLines) ++ ["<body>"]) ++ restOfPage items := by
  have hnone (name : String) : String.ofList (printPieces (titleLine name "")) = "" := rfl
  rw [page_eq, hnone, hnone, String.empty_append, String.empty_append, List.append_assoc,
    Text.unlines_append openingLines, String.append_assoc]

theorem not_mem_splitOn_before_body :
    ∀ text ∈ openingLines ++ middleLines, "<body>".toList ∉ text.toList.splitOn '\n' := by
  have hfixed : ∀ text ∈ openingLines ++ ["<style>", "</style>", "</head>"],
      "<body>".toList ∉ text.toList.splitOn '\n' := by
    decide +kernel
  intro text htext
  rcases List.mem_append.mp htext with hopening | hmiddle
  · exact hfixed text (List.mem_append_left _ hopening)
  · rcases List.mem_append.mp hmiddle with hstyle | hclosing
    · rcases List.mem_cons.mp hstyle with rfl | hescaped
      · exact hfixed _ (by simp)
      · obtain ⟨styled, -, rfl⟩ := List.mem_map.mp hescaped
        exact not_mem_splitOn_escape (by decide) styled
    · exact hfixed text (List.mem_append_right _ (List.mem_cons_of_mem _ hclosing))

/-- The lines that repeat the title are all that it adds to a page. -/
theorem page_titled {title : String} (htitle : title ≠ "") (items : List Item) :
    page { title, items } =
      Text.insertLine "<meta charset=\"utf-8\">" (titleText "title" title)
        (Text.insertLine "<body>" (titleText "h1" title) (page { items })) := by
  have hmeta : ∀ text ∈ ["<!DOCTYPE html>", "<html>", "<head>"],
      "<meta charset=\"utf-8\">".toList ∉ text.toList.splitOn '\n' := by
    decide +kernel
  have hheading : Text.insertLine "<body>" (titleText "h1" title) (page { items }) =
      Text.unlines (["<!DOCTYPE html>", "<html>", "<head>"] ++ ["<meta charset=\"utf-8\">"]) ++
        (Text.unlines (middleLines ++ ["<body>", titleText "h1" title]) ++ restOfPage items) := by
    rw [page_untitled, Text.insertLine_unlines _ _ (by decide +kernel) not_mem_splitOn_before_body,
      List.append_assoc, Text.unlines_append openingLines, String.append_assoc]
    rfl
  have hbody : middleLines ++ ["<body>", titleText "h1" title] =
      (middleLines ++ ["<body>"]) ++ [titleText "h1" title] := by
    rw [List.append_assoc, List.singleton_append]
  have hhead : ["<!DOCTYPE html>", "<html>", "<head>"] ++
      ["<meta charset=\"utf-8\">", titleText "title" title] =
        openingLines ++ [titleText "title" title] := rfl
  rw [hheading, Text.insertLine_unlines _ _ (by decide +kernel) hmeta, hbody, hhead,
    Text.unlines_append _ [titleText "h1" title], Text.unlines_append _ [titleText "title" title],
    page_eq, printPieces_titleLine "title" htitle, printPieces_titleLine "h1" htitle]
  simp only [String.append_assoc]

end Html

theorem Markdown.page_titled {title : String} (htitle : title ≠ "") (items : List Item) :
    page { title, items } = "# " ++ title ++ "\n\n" ++ page { items } := by
  have htitled : titleLines title = ["# " ++ title, ""] := if_neg htitle
  have huntitled : titleLines "" = [] := rfl
  rw [page, page, pageLines, pageLines, htitled, huntitled, List.append_assoc, List.nil_append,
    Text.unlines_append]
  congr 1
  apply String.toList_inj.mp
  simp [Text.unlines]

namespace Format

/-- The page of a document that is given a title, by the page without a title. -/
def titled (format : Format) (title page : String) : String :=
  match format with
  | .json => page
  | .markdown => "# " ++ title ++ "\n\n" ++ page
  | .html =>
      Text.insertLine "<meta charset=\"utf-8\">" ("<title>" ++ Html.escape title ++ "</title>")
        (Text.insertLine "<body>" ("<h1>" ++ Html.escape title ++ "</h1>") page)

theorem render_titled (format : Format) {title : String} (htitle : title ≠ "")
    (items : List Item) :
    format.render { title, items } = format.titled title (format.render { items }) := by
  cases format with
  | json => rfl
  | markdown => exact Markdown.page_titled htitle items
  | html =>
      rw [render, titled, ← Html.titleText_title, ← Html.titleText_h1]
      exact Html.page_titled htitle items

end Format

end StyleDoc
