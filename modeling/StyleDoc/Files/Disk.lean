import StyleDoc.Files.Path

/-!
A disk is a finite set of directories and files, each at a place that is given by the names on the
way from the root, together with the place that relative paths start from. Paths are followed name
by name: every name but the last has to be a directory, two dots lead back to the directory above,
and a slash at the end asks for a directory.
-/

namespace StyleDoc

/-- The names on the way from the root. -/
abbrev Location := List String

inductive Entry where
  | directory
  | file (content : ByteArray)

instance : DecidableEq Entry
  | .directory, .directory => isTrue rfl
  | .directory, .file _ => isFalse Entry.noConfusion
  | .file _, .directory => isFalse Entry.noConfusion
  | .file content, .file other =>
      if same : content.data = other.data then
        isTrue (congrArg Entry.file (ByteArray.ext same))
      else
        isFalse fun equal => same (congrArg ByteArray.data (Entry.file.inj equal))

inductive FileError where
  | missing
  | alreadyExists
  | notDirectory
  | isDirectory
  | notText
  deriving DecidableEq, Repr

def FileError.message : FileError → String
  | .missing => "No such file or directory (os error 2)"
  | .alreadyExists => "File exists (os error 17)"
  | .notDirectory => "Not a directory (os error 20)"
  | .isDirectory => "Is a directory (os error 21)"
  | .notText => "stream did not contain valid UTF-8"

structure Disk where
  here : Location
  entries : List (Location × Entry)
  deriving DecidableEq

namespace Disk

/-- What is found at a place. The root is always a directory. -/
def get? (disk : Disk) (place : Location) : Option Entry :=
  if place = [] then some .directory else disk.entries.lookup place

/-- Puts an entry at a place and leaves every other place as it is. -/
def put (disk : Disk) (place : Location) (entry : Entry) : Disk :=
  { disk with entries := (place, entry) :: disk.entries.filter (·.1 ≠ place) }

/-- Puts an entry at a place, with the directories above it that are not there yet. -/
def putWithParents (disk : Disk) (place : Location) (entry : Entry) : Disk :=
  let parents := (List.range place.length).map place.take
  let prepared := parents.foldl (fun disk parent =>
    match disk.get? parent with
    | some _ => disk
    | none => disk.put parent .directory) disk
  prepared.put place entry

/-- A disk that holds nothing but the directory that relative paths start from. -/
def empty (here : Location) : Disk :=
  { here, entries := [] : Disk }.putWithParents here .directory

/-- The entries of one disk that another does not have. -/
def added (before after : Disk) : List (Location × Entry) :=
  after.entries.filter fun (place, entry) => before.get? place ≠ some entry

/-- One step of a path. -/
def step (disk : Disk) (place : Location) (segment : String) : Except FileError Location :=
  match disk.get? place with
  | none => .error .missing
  | some (.file _) => .error .notDirectory
  | some .directory =>
      if segment = "" || segment = "." then .ok place
      else if segment = ".." then .ok place.dropLast
      else .ok (place ++ [segment])

/-- The place that a path starts from. -/
def start (disk : Disk) (path : Path) : Location :=
  if path.isAbsolute then [] else disk.here

/-- The place that a path leads to, where nothing needs to be yet. -/
def follow (disk : Disk) (path : Path) : Except FileError Location :=
  if path.text = "" then .error .missing
  else path.segments.foldlM disk.step (disk.start path)

/-- What a path leads to. -/
def lookup? (disk : Disk) (path : Path) : Option Entry :=
  match disk.follow path with
  | .ok place => disk.get? place
  | .error _ => none

def isFile (disk : Disk) (path : Path) : Bool :=
  match disk.lookup? path with
  | some (.file _) => true
  | _ => false

def isDirectory (disk : Disk) (path : Path) : Bool :=
  disk.lookup? path = some .directory

def contains (disk : Disk) (path : Path) : Bool :=
  (disk.lookup? path).isSome

/-- The text of a file. -/
def read (disk : Disk) (path : Path) : Except FileError String := do
  match disk.get? (← disk.follow path) with
  | none => .error .missing
  | some .directory => .error .isDirectory
  | some (.file content) =>
      match String.fromUTF8? content with
      | some text => .ok text
      | none => .error .notText

/-- Makes a file or replaces the one that is there. -/
def write (disk : Disk) (path : Path) (text : String) : Except FileError Disk := do
  let place ← disk.follow path
  match disk.get? place with
  | some .directory => .error .isDirectory
  | _ => .ok (disk.put place (.file text.toUTF8))

/-- The names in a directory. -/
def children (disk : Disk) (path : Path) : List String :=
  match disk.follow path with
  | .ok place =>
      disk.entries.filterMap fun (other, _) =>
        if other ≠ [] && other.dropLast = place then other.getLast? else none
  | .error _ => []

/-- The names on the way from a directory to each place below it. -/
def descendants (disk : Disk) (path : Path) : List Location :=
  match disk.follow path with
  | .ok place =>
      disk.entries.filterMap fun (other, _) =>
        if place.isPrefixOf other && other ≠ place then some (other.drop place.length) else none
  | .error _ => []

/-- Makes one directory, in a directory that is there already. Slashes at the end of the path do
not matter. -/
def makeDirectory (disk : Disk) (path : Path) : Except FileError Disk :=
  match path.segments.reverse.dropWhile (· = "") with
  | [] => if path.text = "" then .error .missing else .error .alreadyExists
  | last :: front => do
      let parent ← front.reverse.foldlM disk.step (disk.start path)
      let place ← disk.step parent last
      match disk.get? place with
      | some _ => .error .alreadyExists
      | none => .ok (disk.put place .directory)

/-- Makes a directory; if it cannot be made only because the one above it is missing, the second
argument makes that one first. A directory that is there already is fine. -/
def ensureDirectory (path : Path) (above : Disk → Disk × Option FileError) (disk : Disk) :
    Disk × Option FileError :=
  let attempt (disk : Disk) : Disk × Option FileError :=
    match disk.makeDirectory path with
    | .ok made => (made, none)
    | .error error => (disk, if disk.isDirectory path then none else some error)
  match disk.makeDirectory path with
  | .error .missing =>
      match above disk with
      | (prepared, none) => attempt prepared
      | failed => failed
  | _ => attempt disk

/-- Makes the directory that a list of components, last one first, leads to. -/
def makeAbove : List Path.Component → Disk → Disk × Option FileError
  | [], disk => (disk, none)
  | last :: front, disk =>
      ensureDirectory (.ofComponents (last :: front).reverse) (makeAbove front) disk

/-- Makes a directory and those on the way to it. When this fails half-way, the directories made so
far stay. -/
def makeDirectories (disk : Disk) (path : Path) : Disk × Option FileError :=
  ensureDirectory path (makeAbove path.components.reverse.tail) disk

end Disk

end StyleDoc
