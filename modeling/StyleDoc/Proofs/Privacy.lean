import StyleDoc.Proofs.EarlyFailure
import StyleDoc.Proofs.Files.Difference
import StyleDoc.Proofs.InputOrder
import StyleDoc.Proofs.OnePass

/-!
What is written about a private declaration stays private. The comment block above a declaration is
taken up by its header and by nothing else: it begins below a line that is no comment, none of its
lines is a header, and the header ends it. Other comment lines in its place therefore change the item
of that declaration alone, and as long as the item is private it is never shown.

A run on files reads the edited stylesheet at one place and takes every other step as before, since
the files and directories that it finds are at the same places.
-/

namespace StyleDoc

namespace Stylesheet

/-- The lines with other comment lines above one of their declarations. -/
def withBlock (lines : List Line) (part : Section) (comments : List Line) : List Line :=
  lines.take (part.line - part.comments.length) ++ comments ++ lines.drop part.line

/-- The second stylesheet is the first one with other comment lines above a private declaration,
which is private still. -/
structure Rewords (content other : String) (part : Section) (comments : List Line) : Prop where
  declared : part ∈ sections content
  hidden : part.item.isPrivate = true
  covered : ∀ line ∈ comments, Comment.covers line = true
  replaced : lines other = withBlock (lines content) part comments
  still : ∃ reworded ∈ sections other, reworded.item.isPrivate = true ∧
    reworded.line = part.line - part.comments.length + comments.length

theorem mem_sections_iff {content : String} {part : Section} :
    part ∈ sections content ↔
      ((lines content)[part.line]?.bind Declaration.ofLine?) = some part.declaration ∧
        part.comments = Block.above (lines content) part.line := by
  rw [sections, sectionsOfLines_eq_range, List.mem_filterMap]
  constructor
  · rintro ⟨index, -, hpart⟩
    obtain ⟨declaration, hdeclaration, rfl⟩ := Option.map_eq_some_iff.mp hpart
    exact ⟨hdeclaration, rfl⟩
  · rintro ⟨hdeclaration, hcomments⟩
    obtain ⟨line, hline, -⟩ := Option.bind_eq_some_iff.mp hdeclaration
    obtain ⟨hlt, -⟩ := List.getElem?_eq_some_iff.mp hline
    refine ⟨part.line, List.mem_range.mpr hlt, ?_⟩
    rw [hdeclaration, Option.map_some, ← hcomments]

/-- The lines of a stylesheet around the comment block of one of its declarations. -/
theorem exists_lines_eq_of_mem_sections {content : String} {part : Section}
    (hpart : part ∈ sections content) :
    ∃ front header rest, lines content = front ++ (part.comments ++ header :: rest) ∧
      Declaration.ofLine? header = some part.declaration ∧
      (∀ line ∈ part.comments, Comment.covers line = true) ∧
      (∀ line ∈ front.getLast?, Comment.covers line = false) ∧
      part.line = front.length + part.comments.length := by
  obtain ⟨hdeclaration, hcomments⟩ := mem_sections_iff.mp hpart
  obtain ⟨header, hheader, hdeclaration⟩ := Option.bind_eq_some_iff.mp hdeclaration
  obtain ⟨hlt, rfl⟩ := List.getElem?_eq_some_iff.mp hheader
  rw [Block.above_eq_rtakeWhile] at hcomments
  have htake : ((lines content).take part.line).rdropWhile Comment.covers ++ part.comments =
      (lines content).take part.line := by
    rw [hcomments, List.rdropWhile_append_rtakeWhile]
  refine ⟨((lines content).take part.line).rdropWhile Comment.covers, _,
    (lines content).drop (part.line + 1), ?_, hdeclaration, fun line hline => ?_,
    fun line hline => ?_, ?_⟩
  · rw [← List.append_assoc, htake, List.getElem_cons_drop, List.take_append_drop]
  · rw [hcomments] at hline
    exact List.mem_rtakeWhile_imp hline
  · obtain ⟨hne, rfl⟩ := List.mem_getLast?_eq_getLast hline
    simpa using List.rdropWhile_last_not _ _ hne
  · rw [← List.length_append, htake, List.length_take, Nat.min_eq_left hlt.le]

/-- The items of a stylesheet whose lines are put together around one comment block. -/
theorem items_of_lines_eq {content : String} {front comments rest : List Line} {header : Line}
    {declaration : Declaration} (hlines : lines content = front ++ (comments ++ header :: rest))
    (hheader : Declaration.ofLine? header = some declaration)
    (hcomments : ∀ line ∈ comments, Comment.covers line = true)
    (hfront : ∀ line ∈ front.getLast?, Comment.covers line = false) :
    items content = itemsBelow [] front ++ declaration.item comments :: itemsBelow [] rest := by
  have hplain : Comment.covers header = false := by
    rw [Bool.eq_false_iff]
    intro hcovers
    rw [Comment.ofLine?_eq_none_of_covers hcovers] at hheader
    cases hheader
  have hclear : prolong comments header = [] := if_neg (by simp [hplain])
  rw [items_eq_itemsBelow, hlines, itemsBelow_append, foldl_prolong_eq_nil hfront,
    itemsBelow_comments_append [] hcomments, List.nil_append, itemsBelow, hheader, hclear]
  rfl

/-- The comment lines above the header are exactly those that were put there. -/
theorem item_of_lines_eq {content : String} {front comments rest : List Line} {header : Line}
    {part : Section} (hlines : lines content = front ++ (comments ++ header :: rest))
    (hcomments : ∀ line ∈ comments, Comment.covers line = true)
    (hfront : ∀ line ∈ front.getLast?, Comment.covers line = false)
    (hpart : part ∈ sections content) (hline : part.line = front.length + comments.length) :
    Declaration.ofLine? header = some part.declaration ∧
      part.item = part.declaration.item comments := by
  obtain ⟨hdeclaration, habove⟩ := mem_sections_iff.mp hpart
  have hwhole : lines content = (front ++ comments) ++ header :: rest := by
    rw [hlines, List.append_assoc]
  have hlength : part.line = (front ++ comments).length := by
    rw [hline, List.length_append]
  have hempty : front.rtakeWhile Comment.covers = [] := by
    rw [List.rtakeWhile_eq_nil_iff]
    intro hne
    simp [hfront _ (List.getLast?_eq_some_getLast hne)]
  constructor
  · rwa [hwhole, hlength, List.getElem?_append_right (Nat.le_refl _), Nat.sub_self,
      List.getElem?_cons_zero, Option.bind_some] at hdeclaration
  · rw [Block.above_eq_rtakeWhile, hwhole, hlength, List.take_left,
      Block.rtakeWhile_append_of_forall _ _ _ hcomments, hempty, List.nil_append] at habove
    rw [← habove]
    rfl

/-- The public items are the same, in the same order. -/
theorem Rewords.visible_eq {content other : String} {part : Section} {comments : List Line}
    (hrewords : Rewords content other part comments) :
    Item.visible false (items other) = Item.visible false (items content) := by
  obtain ⟨front, header, rest, hlines, hheader, hcovered, hfront, hline⟩ :=
    exists_lines_eq_of_mem_sections hrewords.declared
  have hlength : part.line - part.comments.length = front.length := by
    rw [hline, Nat.add_sub_cancel]
  have hchanged : lines other = front ++ (comments ++ header :: rest) := by
    rw [hrewords.replaced, withBlock, hlength, hline, hlines, List.take_left, ← List.append_assoc,
      ← List.length_append, List.drop_left, List.append_assoc]
  have hbefore := items_of_lines_eq hlines hheader hcovered hfront
  have hafter := items_of_lines_eq hchanged hheader hrewords.covered hfront
  have hold : (part.declaration.item part.comments).isPrivate = true := hrewords.hidden
  have hnew : (part.declaration.item comments).isPrivate = true := by
    obtain ⟨reworded, hreworded, hstill, hplace⟩ := hrewords.still
    rw [hlength] at hplace
    obtain ⟨hsame, hitem⟩ := item_of_lines_eq hchanged hrewords.covered hfront hreworded hplace
    rwa [hitem, ← Option.some.inj (hheader.symm.trans hsame)] at hstill
  rw [hbefore, hafter]
  simp [Item.visible, hold, hnew]

end Stylesheet

namespace Publication

open Disk

variable {settings : Settings} {content edited : String} {place : Location} {disk other : Disk}

/-- Two outcomes that wrote to the same outputs and end alike, on disks that differ in one file. -/
structure AlikeBut (place : Location) (before after : ByteArray) (outcome other : Outcome) :
    Prop where
  disk : DiffersAt place before after outcome.disk other.disk
  outputs : Log.outputs outcome.events = Log.outputs other.events
  failure : outcome.failure.isSome = other.failure.isSome

theorem AlikeBut.after {before after : ByteArray} {outcome again : Outcome}
    {events told : List Log.Event} (halike : AlikeBut place before after outcome again)
    (houtputs : Log.outputs events = Log.outputs told) :
    AlikeBut place before after (outcome.after events) (again.after told) where
  disk := halike.disk
  outputs := by
    rw [Outcome.outputs_after, Outcome.outputs_after, houtputs, halike.outputs]
  failure := halike.failure

section Edited

variable (hvisible : Item.visible settings.showPrivate (Stylesheet.items edited) =
  Item.visible settings.showPrivate (Stylesheet.items content))

include hvisible

/-- The edit does not show in any document. -/
theorem document?_differs (hdiffers : DiffersAt place content.toUTF8 edited.toUTF8 disk other)
    (input : Path) : document? settings other input = document? settings disk input := by
  rw [document?, document?, lookup?, lookup?, hdiffers.sameShape.follow]
  cases disk.follow input with
  | error error => rfl
  | ok target =>
      dsimp only
      rcases hdiffers.get? target with hsame | ⟨-, hbefore, hafter⟩
      · rw [hsame]
      · rw [hbefore, hafter]
        simp only [fromUTF8?_toUTF8, hvisible]

/-- On both disks every input is passed or stopped at in the same way. -/
theorem publishFrom_differs (hdiffers : DiffersAt place content.toUTF8 edited.toUTF8 disk other)
    (written : List (Path × Path)) (inputs : List Path) :
    AlikeBut place content.toUTF8 edited.toUTF8 (publishFrom settings written disk inputs)
      (publishFrom settings written other inputs) := by
  induction inputs generalizing disk other written with
  | nil => exact ⟨hdiffers, rfl, rfl⟩
  | cons input inputs ih =>
      have hdocument := document?_differs hvisible hdiffers input
      cases hshown : document? settings disk input with
      | none =>
          obtain ⟨events, hevents, heq⟩ := publishFrom_of_undocumented hshown
          obtain ⟨told, htold, hother⟩ := publishFrom_of_undocumented (hdocument.trans hshown)
          rw [heq, hother]
          exact (ih hdiffers written).after (hevents.trans htold.symm)
      | some shown =>
          obtain ⟨events, hevents, heq⟩ := publishFrom_of_documented hshown
          obtain ⟨told, htold, hother⟩ := publishFrom_of_documented (hdocument.trans hshown)
          have houtputs := hevents.trans htold.symm
          rw [heq, hother]
          cases written.find? (·.1.same (output settings input)) with
          | some found => exact ⟨hdiffers, houtputs, rfl⟩
          | none =>
              obtain ⟨error, hfails, hagain⟩ | ⟨changed, rewritten, hwrite, hagain, hafter⟩ :=
                hdiffers.write (output settings input) (settings.format.render shown)
              · rw [hfails, hagain]
                exact ⟨hdiffers, houtputs, rfl⟩
              · rw [hwrite, hagain]
                refine (ih hafter _).after ?_
                rw [Log.outputs_append, Log.outputs_append, houtputs]

omit hvisible in
/-- Disks that agree still do after publishing. -/
theorem publishFrom_agrees (hagrees : Agrees disk other) (written : List (Path × Path))
    (inputs : List Path) :
    Agrees (publishFrom settings written disk inputs).disk
      (publishFrom settings written other inputs).disk := by
  have hdiffers : DiffersAt [] "".toUTF8 "".toUTF8 disk other := .of_agrees hagrees
  exact (publishFrom_differs rfl hdiffers written inputs).disk.agrees_of_self

/-- What is written to both disks is the same on both of them from then on. -/
theorem lookup?_of_write (hdiffers : DiffersAt place content.toUTF8 edited.toUTF8 disk other)
    {changed rewritten : Disk} {path : Path} {text : String}
    (hwrite : disk.write path text = .ok changed) (hagain : other.write path text = .ok rewritten)
    (written : List (Path × Path)) (inputs : List Path) :
    (publishFrom settings written rewritten inputs).disk.lookup? path =
      (publishFrom settings written changed inputs).disk.lookup? path := by
  obtain ⟨target, hfollow, htarget, rfl⟩ := write_eq_ok hwrite
  obtain ⟨again, hother, -, rfl⟩ := write_eq_ok hagain
  rw [hdiffers.sameShape.follow, hfollow] at hother
  obtain rfl := Except.ok.inj hother
  have hput := hdiffers.put target (.file text.toUTF8)
  by_cases hplace : target = place
  · subst hplace
    have hroot : target ≠ [] := by
      rintro rfl
      exact htarget rfl
    have hsame : (other.put target (.file text.toUTF8)).get? target =
        (disk.put target (.file text.toUTF8)).get? target := by
      rw [get?_put_self disk hroot, get?_put_self other hroot]
    exact (publishFrom_agrees (hput.agrees_of_get?_eq hsame) written inputs).lookup? path
  · have hfinal := (publishFrom_differs hvisible hput written inputs).disk
    have hkeeps : KeepsDirectories _ (publishFrom settings written _ inputs).disk :=
      publishFrom_keepsDirectories written (disk.put target (.file text.toUTF8)) inputs
    have hleads := hkeeps.follow ((KeepsDirectories.put htarget _).follow hfollow)
    rw [lookup?, lookup?, hfinal.sameShape.follow, hleads]
    exact (hfinal.get? target).resolve_right fun hdiffer => hplace hdiffer.1

/-- What has been written is the same on both disks, even where it was written over the edited
file. -/
theorem lookup?_written (hdiffers : DiffersAt place content.toUTF8 edited.toUTF8 disk other)
    (written : List (Path × Path)) (inputs : List Path) :
    ∀ path ∈ Log.outputs (publishFrom settings written disk inputs).events,
      (publishFrom settings written other inputs).disk.lookup? path =
        (publishFrom settings written disk inputs).disk.lookup? path := by
  induction inputs generalizing disk other written with
  | nil => exact fun _ hpath => absurd hpath List.not_mem_nil
  | cons input inputs ih =>
      have hdocument := document?_differs hvisible hdiffers input
      cases hshown : document? settings disk input with
      | none =>
          obtain ⟨events, hevents, heq⟩ := publishFrom_of_undocumented hshown
          obtain ⟨told, htold, hother⟩ := publishFrom_of_undocumented (hdocument.trans hshown)
          rw [heq, hother, Outcome.after, Log.outputs_append, hevents, List.nil_append]
          exact ih hdiffers written
      | some shown =>
          obtain ⟨events, hevents, heq⟩ := publishFrom_of_documented hshown
          obtain ⟨told, htold, hother⟩ := publishFrom_of_documented (hdocument.trans hshown)
          rw [heq, hother]
          cases written.find? (·.1.same (output settings input)) with
          | some found =>
              rw [hevents]
              exact fun _ hpath => absurd hpath List.not_mem_nil
          | none =>
              obtain ⟨error, hfails, hagain⟩ | ⟨changed, rewritten, hwrite, hagain, hafter⟩ :=
                hdiffers.write (output settings input) (settings.format.render shown)
              · rw [hfails, hagain, hevents]
                exact fun _ hpath => absurd hpath List.not_mem_nil
              · rw [hwrite, hagain]
                dsimp only [Outcome.after]
                rw [Log.outputs_append, Log.outputs_append, hevents, List.nil_append]
                refine List.forall_mem_cons.mpr ⟨?_, ih hafter _⟩
                exact lookup?_of_write hvisible hdiffers hwrite hagain _ inputs

/-- The same paths are found on both disks, so publishing ends alike on them. -/
theorem publish_differs (hdiffers : DiffersAt place content.toUTF8 edited.toUTF8 disk other)
    (inputs : List String) :
    AlikeBut place content.toUTF8 edited.toUTF8 (publish settings disk inputs)
        (publish settings other inputs) ∧
      ∀ path ∈ Log.outputs (publish settings disk inputs).events,
        (publish settings other inputs).disk.lookup? path =
          (publish settings disk inputs).disk.lookup? path := by
  obtain ⟨hprepared, hmade⟩ := makeDirectories_tracks settings.directory disk other hdiffers
  change DiffersAt _ _ _ (prepared settings disk) (prepared settings other) at hprepared
  cases hcause : (disk.makeDirectories settings.directory).2 with
  | some cause =>
      rw [publish_of_unprepared inputs hcause, publish_of_unprepared inputs (hmade.trans hcause)]
      exact ⟨⟨hprepared, rfl, rfl⟩, fun _ => nofun⟩
  | none =>
      have hdisk := Inputs.outputs_expand (prepared settings disk) inputs
      have hother := Inputs.outputs_expand (prepared settings other) inputs
      rw [publish_of_prepared inputs hcause, publish_of_prepared inputs (hmade.trans hcause)]
      dsimp only
      obtain ⟨invalid, again, hinvalid, hagain⟩ | ⟨paths, found, hpaths, hfound, hcomponents⟩ :=
        Inputs.expand_sameShape hprepared.sameShape inputs
      · rw [hinvalid, hagain]
        dsimp only
        rw [hdisk]
        exact ⟨⟨hprepared, hdisk.trans hother.symm, rfl⟩, fun _ => nofun⟩
      · have halike : Alike (publishFrom settings [] (prepared settings other) found)
            (publishFrom settings [] (prepared settings other) paths) := by
          refine publishFrom_alike hcomponents (fun path hpath => ?_) (fun path hpath => ?_) rfl
          · exact exists_follow_of_isFile (Inputs.isFile_of_mem_expand hfound path hpath)
          · apply exists_follow_of_isFile
            rw [hprepared.sameShape.isFile]
            exact Inputs.isFile_of_mem_expand hpaths path hpath
        have hsame := publishFrom_differs hvisible hprepared [] paths
        have hwritten := lookup?_written hvisible hprepared [] paths
        rw [← halike.disk] at hwritten
        rw [hpaths, hfound]
        dsimp only [Outcome.after]
        rw [Log.outputs_append, hdisk, List.nil_append]
        refine ⟨AlikeBut.after ?_ (hdisk.trans hother.symm), hwritten⟩
        exact ⟨halike.disk ▸ hsame.disk, hsame.outputs.trans halike.outputs.symm,
          hsame.failure.trans halike.failure.symm⟩

end Edited

end Publication

namespace Program

open Publication

/-- What stays the same when one text is put in the place of another: what is printed when it is
documented, and what is written when it is the text of a file. -/
structure Conceals (content edited : String) : Prop where
  printed : ∀ (options : Options) (surroundings : Surroundings), options.showPrivate = false →
    let before := run options { surroundings with input := content.toUTF8 }
    let after := run options { surroundings with input := edited.toUTF8 }
    after.output = before.output ∧ after.code = before.code ∧ after.disk = before.disk
  written : ∀ (options : Options) (surroundings : Surroundings) (place : Location),
    options.showPrivate = false → surroundings.disk.get? place = some (.file content.toUTF8) →
    let reworded : Surroundings :=
      { surroundings with disk := surroundings.disk.put place (.file edited.toUTF8) }
    let before := run options surroundings
    let after := run options reworded
    after.code = before.code ∧ after.output = before.output ∧
      Log.outputs (effect options reworded).events =
        Log.outputs (effect options surroundings).events ∧
      (∀ path ∈ Log.outputs (effect options surroundings).events,
        after.disk.lookup? path = before.disk.lookup? path) ∧
      Disk.DiffersAt place content.toUTF8 edited.toUTF8 before.disk after.disk

/-- Two effects that print and write the same and end alike, on disks that differ in one file. -/
structure EffectsDiffer (place : Location) (before after : ByteArray) (effect other : Effect) :
    Prop where
  output : other.output = effect.output
  failure : other.failure.isSome = effect.failure.isSome
  outputs : Log.outputs other.events = Log.outputs effect.events
  written : ∀ path ∈ Log.outputs effect.events, other.disk.lookup? path = effect.disk.lookup? path
  disk : Disk.DiffersAt place before after effect.disk other.disk

/-- Documenting a text writes to no output, and does not depend on the disk. -/
theorem document_of_disk (options : Options) {place : Location} {before after : ByteArray}
    {disk other : Disk} (hdiffers : Disk.DiffersAt place before after disk other)
    (input : ByteArray) :
    EffectsDiffer place before after (document options disk input)
      (document options other input) := by
  unfold document
  split
  · exact ⟨rfl, rfl, rfl, fun _ => nofun, hdiffers⟩
  · rename_i content hcontent
    have hnothing : ∀ path ∈ Log.outputs (Log.ofSections (Stylesheet.sections content)),
        other.lookup? path = disk.lookup? path := by
      rw [Log.outputs_ofSections]
      exact fun _ => nofun
    dsimp only
    split
    · exact ⟨rfl, rfl, rfl, hnothing, hdiffers⟩
    · exact ⟨rfl, rfl, rfl, hnothing, hdiffers⟩

section Edited

variable {options : Options} {content edited : String}
  (hvisible : Item.visible options.showPrivate (Stylesheet.items edited) =
    Item.visible options.showPrivate (Stylesheet.items content))

include hvisible

/-- Only what is shown of a text is printed. -/
theorem document_edited (disk : Disk) :
    (document options disk edited.toUTF8).output = (document options disk content.toUTF8).output ∧
      (document options disk edited.toUTF8).failure.isSome =
        (document options disk content.toUTF8).failure.isSome := by
  unfold document
  simp only [fromUTF8?_toUTF8]
  cases Format.ofName options.format with
  | error error => exact ⟨rfl, rfl⟩
  | ok format => exact ⟨congrArg (fun items => format.render { items }) hvisible, rfl⟩

theorem effect_edited_input (surroundings : Surroundings) :
    let before := effect options { surroundings with input := content.toUTF8 }
    let after := effect options { surroundings with input := edited.toUTF8 }
    after.output = before.output ∧ after.failure.isSome = before.failure.isSome ∧
      after.disk = before.disk := by
  dsimp only
  by_cases hinputs : options.inputs = []
  · rw [effect_of_text _ hinputs, effect_of_text _ hinputs, document_disk, document_disk]
    obtain ⟨houtput, hfailure⟩ := document_edited hvisible surroundings.disk
    exact ⟨houtput, hfailure, rfl⟩
  · rw [effect_of_files _ hinputs, effect_of_files _ hinputs]
    exact ⟨rfl, rfl, rfl⟩

/-- Publishing a file that was edited differs in that file at most. -/
theorem publish_edited {place : Location} {disk other : Disk}
    (hdiffers : Disk.DiffersAt place content.toUTF8 edited.toUTF8 disk other) :
    EffectsDiffer place content.toUTF8 edited.toUTF8 (publish options disk)
      (publish options other) := by
  unfold publish
  cases options.output with
  | none => exact ⟨rfl, rfl, rfl, fun _ => nofun, hdiffers⟩
  | some directory =>
      dsimp only
      cases Format.ofName options.format with
      | error error => exact ⟨rfl, rfl, rfl, fun _ => nofun, hdiffers⟩
      | ok format =>
          have hshown : Item.visible (settings options directory format).showPrivate
              (Stylesheet.items edited) = Item.visible _ (Stylesheet.items content) := hvisible
          obtain ⟨⟨hdisk, houtputs, hfailure⟩, hwritten⟩ :=
            Publication.publish_differs hshown hdiffers options.inputs
          exact ⟨rfl, hfailure.symm, houtputs.symm, hwritten, hdisk⟩

theorem effect_edited_file {surroundings : Surroundings} {place : Location}
    (hfile : surroundings.disk.get? place = some (.file content.toUTF8)) :
    EffectsDiffer place content.toUTF8 edited.toUTF8 (effect options surroundings)
      (effect options
        { surroundings with disk := surroundings.disk.put place (.file edited.toUTF8) }) := by
  have hdiffers : Disk.DiffersAt place content.toUTF8 edited.toUTF8 surroundings.disk
      (surroundings.disk.put place (.file edited.toUTF8)) := .of_put hfile
  by_cases hinputs : options.inputs = []
  · rw [effect_of_text _ hinputs, effect_of_text _ hinputs]
    exact document_of_disk options hdiffers surroundings.input
  · rw [effect_of_files _ hinputs, effect_of_files _ hinputs]
    exact publish_edited hvisible hdiffers

end Edited

/-- Other comment lines above a private declaration change nothing that is printed or written, as
long as the declaration stays private and private ones are not asked for. -/
theorem run_conceals {content edited : String} {part : Section} {comments : List Line}
    (hrewords : Stylesheet.Rewords content edited part comments) : Conceals content edited := by
  refine ⟨?printed, ?written⟩
  case printed =>
    intro options surroundings hpublic before after
    have hvisible := hrewords.visible_eq
    rw [← hpublic] at hvisible
    obtain ⟨houtput, hfailure, hdisk⟩ := effect_edited_input hvisible surroundings
    exact ⟨houtput, by rw [run_code, run_code, hfailure], hdisk⟩
  case written =>
    intro options surroundings place hpublic hfile reworded before after
    have hvisible := hrewords.visible_eq
    rw [← hpublic] at hvisible
    obtain ⟨houtput, hfailure, houtputs, hwritten, hdisk⟩ := effect_edited_file hvisible hfile
    exact ⟨by rw [run_code, run_code, hfailure], houtput, houtputs, hwritten, hdisk⟩

/-- A private mixin between two others, of which the last one has no comment of its own. -/
def guardedText : String :=
  "@mixin row;\n/// Half.\n/// @access private\n@mixin half;\n@mixin cell;\n"

/-- The same mixins with three other comment lines, one of which quotes a header. -/
def rewordedText : String :=
  "@mixin row;\n/* @access private\n * @mixin third;\n */\n@mixin half;\n@mixin cell;\n"

def guardedPart : Section where
  line := 3
  declaration := { kind := .mixin, name := "half" }
  comments := ["/// Half.".toList, "/// @access private".toList]

def rewordedLines : List Line :=
  ["/* @access private".toList, " * @mixin third;".toList, " */".toList]

theorem run_conceals_guarded :
    Stylesheet.Rewords guardedText rewordedText guardedPart rewordedLines ∧
      Conceals guardedText rewordedText := by
  have hrewords : Stylesheet.Rewords guardedText rewordedText guardedPart rewordedLines := by
    refine ⟨?_, ?_, ?_, ?_, ?_⟩ <;> decide +kernel
  exact ⟨hrewords, run_conceals hrewords⟩

end Program

end StyleDoc
