/-!
Paths as they were written, compared by their components. Repeated slashes, single dots after the
start and a slash at the end leave the components as they are, so two spellings may be equal in the
order while their texts differ; no file is looked at to find out whether two paths lead to the same
place.
-/

namespace StyleDoc

structure Path where
  text : String
  deriving DecidableEq, Repr, Inhabited

namespace Path

inductive Component where
  | root
  | here
  | parent
  | name (text : String)
  deriving DecidableEq, Repr, Inhabited

/-- Special components come before names. -/
def Component.rank : Component → Nat
  | .root => 0
  | .here => 1
  | .parent => 2
  | .name _ => 3

def Component.label : Component → String
  | .name text => text
  | _ => ""

/-- Names are ordered by the code points of their characters. -/
instance : Ord Component where
  compare := compareLex (compareOn Component.rank) (compareOn Component.label)

instance : Std.TransOrd Component :=
  inferInstanceAs (Std.TransCmp (compareLex (compareOn Component.rank) (compareOn Component.label)))

instance : Std.LawfulEqOrd Component where
  eq_of_compare {a b} h := by
    obtain ⟨sameRank, sameLabel⟩ := Ordering.then_eq_eq.1 h
    have rank : a.rank = b.rank := Std.LawfulEqOrd.eq_of_compare sameRank
    have label : a.label = b.label := Std.LawfulEqOrd.eq_of_compare sameLabel
    cases a <;> cases b <;> simp_all [Component.rank, Component.label]

/-- The parts between slashes. -/
def segments (path : Path) : List String :=
  (path.text.toList.splitOn '/').map String.ofList

def isAbsolute (path : Path) : Bool :=
  path.text.toList.head? == some '/'

/-- A segment that is not the first one, if it counts. -/
def Component.ofSegment? (segment : String) : Option Component :=
  if segment = "" || segment = "." then none
  else if segment = ".." then some .parent
  else some (.name segment)

def components (path : Path) : List Component :=
  let named := path.segments.filterMap Component.ofSegment?
  if path.isAbsolute then .root :: named
  else if path.segments.head? = some "." then .here :: named
  else named

/-- Whether two paths have the same components. -/
def same (path other : Path) : Bool :=
  path.components = other.components

/-- The path of a name inside a directory. -/
def join (directory : Path) (name : String) : Path :=
  match directory.text.toList.getLast? with
  | none | some '/' => { text := directory.text ++ name }
  | some _ => { text := directory.text ++ "/" ++ name }

/-- A path that spells its components without anything superfluous. -/
def ofComponents (components : List Component) : Path :=
  components.foldl (fun path component =>
    match component with
    | .root => { text := "/" }
    | .here => path.join "."
    | .parent => path.join ".."
    | .name text => path.join text) { text := "" }

/-- The name of the file that the path leads to. -/
def fileName? (path : Path) : Option String :=
  match path.components.getLast? with
  | some (.name text) => some text
  | _ => none

/-- A file name cut at its last dot, unless the dot comes first. -/
def splitExtension (name : String) : String × Option String :=
  let backwards := name.toList.reverse
  match backwards.dropWhile (· ≠ '.') with
  | [] | ['.'] => (name, none)
  | _ :: front =>
      (String.ofList front.reverse, some (String.ofList (backwards.takeWhile (· ≠ '.')).reverse))

/-- The file name without its extension. -/
def stem (path : Path) : String :=
  match path.fileName? with
  | some name => (splitExtension name).1
  | none => ""

def extension? (path : Path) : Option String :=
  path.fileName?.bind fun name => (splitExtension name).2

end Path

end StyleDoc
