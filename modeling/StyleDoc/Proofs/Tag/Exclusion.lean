import StyleDoc.Proofs.BlockFields
import StyleDoc.Text.Scan

/-!
No line has two forms. Every form asks for a name of its own at the start of the line, no name
begins another one, and none of them begins a line that is left out. A line therefore contributes a
tag as soon as any form gives that tag, in whatever order the forms are tried, and whether a line is
left out can be asked before, between or after them.
-/

namespace StyleDoc.Tag

open Text

/-- The names that the forms ask for, form by form. -/
def names : List String :=
  ["@return", "@param", "@deprecated", "@author", "@access", "@throw", "@todo", "@alias", "@link"]

theorem names_apart :
    names.Pairwise fun first second =>
      ¬ first.toList <+: second.toList ∧ ¬ second.toList <+: first.toList := by
  decide

/-- A form accepts only lines that begin with its name. -/
theorem forms_named :
    List.Forall₂ (fun form name => ∀ line tag, form line = some tag → name.toList <+: line)
      forms names := by
  refine .cons ?_ (.cons ?_ (.cons ?_ (.cons ?_ (.cons ?_ (.cons ?_ (.cons ?_ (.cons ?_
    (.cons ?_ .nil))))))))
  all_goals
    intro line tag hread
    obtain ⟨_, hfound, -⟩ := Option.map_eq_some_iff.mp hread
    obtain ⟨rest, hrest, -⟩ := Option.bind_eq_some_iff.mp hfound
    exact ⟨rest, (literal?_eq_some_iff.mp hrest).symm⟩

theorem exists_mem_of_forall₂ {α β : Type} {r : α → β → Prop} {l : List α} {m : List β}
    (hpaired : List.Forall₂ r l m) {a : α} (ha : a ∈ l) : ∃ b ∈ m, r a b := by
  induction hpaired with
  | nil => cases ha
  | cons hfirst _ ih =>
      rcases List.mem_cons.mp ha with rfl | hrest
      · exact ⟨_, List.mem_cons_self, hfirst⟩
      · obtain ⟨b, hb, hrel⟩ := ih hrest
        exact ⟨b, List.mem_cons_of_mem _ hb, hrel⟩

theorem forms_exclusive :
    forms.Pairwise fun first second => ∀ line, first line = none ∨ second line = none := by
  have happart := names_apart
  have hnamed := forms_named
  generalize forms = forms at hnamed
  generalize names = names at hnamed happart
  induction hnamed with
  | nil => exact .nil
  | @cons form name forms names hform hforms ih =>
      obtain ⟨hfirst, hrest⟩ := List.pairwise_cons.mp happart
      refine List.pairwise_cons.mpr ⟨fun other hother line => ?_, ih hrest⟩
      obtain ⟨otherName, hotherName, hnamed⟩ := exists_mem_of_forall₂ hforms hother
      rcases hread : form line with _ | tag
      · exact Or.inl rfl
      · refine Or.inr (Option.eq_none_iff_forall_ne_some.mpr fun otherTag hotherRead => ?_)
        have hcomparable := List.prefix_or_prefix_of_prefix (hform line tag hread)
          (hnamed line otherTag hotherRead)
        exact hcomparable.elim (hfirst otherName hotherName).1 (hfirst otherName hotherName).2

/-- A line that begins with the name of a tag is not left out. -/
theorem isSkipped_eq_false {name : String} (hname : name ∈ names) {line : Line}
    (hline : name.toList <+: line) : isSkipped line = false := by
  obtain ⟨rest, rfl⟩ := hline
  simp only [names, List.mem_cons, List.not_mem_nil, or_false] at hname
  rcases hname with rfl | rfl | rfl | rfl | rfl | rfl | rfl | rfl | rfl <;>
    simp [isSkipped, isRule, isOmitted, named?, literal?, isBlank]

theorem eq_none_of_isSkipped {line : Line} (hskipped : isSkipped line = true)
    {form : Line → Option Tag} (hform : form ∈ forms) : form line = none := by
  obtain ⟨name, hname, hnamed⟩ := exists_mem_of_forall₂ forms_named hform
  refine Option.eq_none_iff_forall_ne_some.mpr fun tag hread => ?_
  rw [isSkipped_eq_false hname (hnamed line tag hread)] at hskipped
  cases hskipped

/-- Where at most one function has a result, it does not matter that it is the first one. -/
theorem findSome?_eq_some_iff_of_pairwise {α β : Type} {f : α → Option β} {l : List α}
    (hl : l.Pairwise fun first second => f first = none ∨ f second = none) {b : β} :
    l.findSome? f = some b ↔ ∃ a ∈ l, f a = some b := by
  constructor
  · exact List.exists_of_findSome?_eq_some
  · rintro ⟨a, ha, hfound⟩
    induction hl with
    | nil => cases ha
    | @cons first rest hfirst _ ih =>
        rcases List.mem_cons.mp ha with rfl | hrest
        · simp [hfound]
        · have hnone : f first = none :=
            (hfirst a hrest).resolve_right (by simp [hfound])
          rw [List.findSome?_cons, hnone, ih hrest]

theorem findSome?_eq_of_perm {α β : Type} {f : α → Option β} {l m : List α}
    (hl : l.Pairwise fun first second => f first = none ∨ f second = none) (hperm : m.Perm l) :
    m.findSome? f = l.findSome? f := by
  have hm := (hperm.pairwise_iff Or.symm).mpr hl
  refine Option.ext fun b => ?_
  rw [findSome?_eq_some_iff_of_pairwise hl, findSome?_eq_some_iff_of_pairwise hm]
  exact exists_congr fun a => and_congr_left fun _ => hperm.mem_iff

/-- A line contributes a tag other than description exactly if one of the forms gives it. -/
theorem ofLine?_eq_some_iff_exists_form {line : Line} {tag : Tag}
    (hfield : tag.field ≠ "description") :
    ofLine? line = some tag ↔ ∃ form ∈ forms, form line = some tag := by
  have hfind := findSome?_eq_some_iff_of_pairwise (b := tag)
    (forms_exclusive.imp fun hexclusive => hexclusive line)
  constructor
  · intro hread
    unfold ofLine? at hread
    split at hread
    · cases hread
    · split at hread
      · rename_i found hfound
        exact hfind.mp (hfound.trans hread)
      · obtain rfl := Option.some.inj hread
        exact absurd rfl hfield
  · rintro ⟨form, hform, hread⟩
    obtain ⟨name, hname, hnamed⟩ := exists_mem_of_forall₂ forms_named hform
    have hkept := isSkipped_eq_false hname (hnamed line tag hread)
    simp [ofLine?, hkept, hfind.mpr ⟨form, hform, hread⟩]

/-- A test of what a line contributes, which may be nothing. A test that cannot tell has no
result. -/
abbrev Test : Type :=
  Line → Option (Option Tag)

def skipTest : Test :=
  fun line => if isSkipped line then some none else none

def formTest (form : Line → Option Tag) : Test :=
  fun line => (form line).map some

/-- The test for lines that contribute nothing, and a test for each form. -/
def tests : List Test :=
  skipTest :: forms.map formTest

/-- What a line contributes by the first test that can tell. If none can, it is description. -/
def firstOf (tests : List Test) (line : Line) : Option Tag :=
  (tests.findSome? (· line)).getD (some (.description (String.ofList ('\n' :: line))))

theorem ofLine?_eq_firstOf (line : Line) : ofLine? line = firstOf tests line := by
  have hforms : (forms.map formTest).findSome? (· line) = (forms.findSome? (· line)).map some := by
    rw [List.findSome?_map, List.map_findSome?]
    rfl
  unfold ofLine? firstOf tests
  rw [List.findSome?_cons, hforms]
  by_cases hskipped : isSkipped line = true
  · simp [skipTest, hskipped]
  · cases forms.findSome? (· line) <;> simp [skipTest, hskipped]

theorem tests_exclusive (line : Line) :
    tests.Pairwise fun first second => first line = none ∨ second line = none := by
  have hforms : (forms.map formTest).Pairwise fun first second =>
      first line = none ∨ second line = none := by
    refine List.pairwise_map.mpr (forms_exclusive.imp fun hexclusive => ?_)
    simpa [formTest] using hexclusive line
  refine List.pairwise_cons.mpr ⟨fun test htest => ?_, hforms⟩
  obtain ⟨form, hform, rfl⟩ := List.mem_map.mp htest
  by_cases hskipped : isSkipped line = true
  · exact Or.inr (by simp [formTest, eq_none_of_isSkipped hskipped hform])
  · exact Or.inl (by simp [skipTest, hskipped])

/-- At most one form accepts a line, and none accepts a line that is left out. What a line
contributes therefore comes out the same when the forms are tried in any other order, and when the
test for lines that are left out is made at any place among them. -/
theorem firstOf_any_order :
    (∀ line, forms.Pairwise fun first second => first line = none ∨ second line = none) ∧
      (∀ line, isSkipped line = true → ∀ form ∈ forms, form line = none) ∧
      ∀ order : List Test, order.Perm tests → ∀ line, firstOf order line = ofLine? line := by
  refine ⟨fun line => forms_exclusive.imp fun hexclusive => hexclusive line,
    fun line hskipped form => eq_none_of_isSkipped hskipped, fun order hperm line => ?_⟩
  rw [ofLine?_eq_firstOf, firstOf, firstOf, findSome?_eq_of_perm (tests_exclusive line) hperm]

/-- The forms from the last to the first, and after them the test for lines that are left out. -/
theorem firstOf_any_order_reversed :
    ((forms.map formTest).reverse ++ [skipTest]).Perm tests ∧
      firstOf ((forms.map formTest).reverse ++ [skipTest]) "@throws no unit".toList =
        some (.throws "no unit") ∧
      (isSkipped "@ignore @todo".toList = true ∧
        ∀ form ∈ forms, form "@ignore @todo".toList = none) ∧
      firstOf ((forms.map formTest).reverse ++ [skipTest]) "@ignore @todo".toList = none := by
  have hperm : ((forms.map formTest).reverse ++ [skipTest]).Perm tests :=
    List.perm_append_comm.trans ((List.reverse_perm _).cons skipTest)
  have hskipped : isSkipped "@ignore @todo".toList = true := by decide +kernel
  obtain ⟨-, hnone, horder⟩ := firstOf_any_order
  refine ⟨hperm, ?_, ⟨hskipped, hnone _ hskipped⟩, ?_⟩
  · exact (horder _ hperm _).trans (by decide +kernel)
  · exact (horder _ hperm _).trans (by decide +kernel)

end StyleDoc.Tag
