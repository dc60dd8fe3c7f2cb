import StyleDoc.Glob.Search
import StyleDoc.Log.Event

/-!
The files that the inputs of a command line stand for. An input that exists is never taken for a
pattern: a file stands for itself, and a directory for the stylesheets directly inside it. The
files come in the order of their paths, and of several spellings that the order does not tell apart
the one given first remains.
-/

namespace StyleDoc.Inputs

/-- The endings of the names of stylesheets. -/
def extensions : List String :=
  ["scss", "sass"]

def isStylesheet (path : Path) : Bool :=
  path.extension?.any extensions.contains

/-- A pattern that is not well formed. -/
structure Invalid where
  pattern : String
  error : Glob.Malformed
  deriving DecidableEq, Repr

/-- The stylesheets directly inside a directory. -/
def inDirectory (disk : Disk) (directory : Path) : List Path :=
  ((disk.children directory).map directory.join).filter fun path =>
    disk.isFile path && isStylesheet path

/-- The files that one input stands for, and what is told about it. -/
def find (disk : Disk) (input : String) : Except Invalid (List Path × List Log.Event) :=
  let path : Path := { text := input }
  if disk.isFile path then .ok ([path], [])
  else if disk.isDirectory path then .ok (inDirectory disk path, [])
  else
    match Glob.Pattern.ofText input with
    | .error error => .error { pattern := input, error }
    | .ok pattern =>
        let files := pattern.files disk
        .ok (files, if files.isEmpty then [.nothingMatched input] else [])

/-- The files of all inputs in the order of the inputs. What is told before an invalid pattern is
told nonetheless. -/
def findAll (disk : Disk) : List String → List Log.Event × Except Invalid (List Path)
  | [] => ([], .ok [])
  | input :: inputs =>
      match find disk input with
      | .error invalid => ([], .error invalid)
      | .ok (files, events) =>
          let (more, result) := findAll disk inputs
          (events ++ more, result.map (files ++ ·))

/-- Puts a path in its place in an ordered list, unless an equal one is there already. -/
def place (path : Path) : List Path → List Path
  | [] => [path]
  | other :: rest =>
      match compare path.components other.components with
      | .lt => path :: other :: rest
      | .eq => other :: rest
      | .gt => other :: place path rest

/-- Paths in order, of equal ones only the first. -/
def arrange (paths : List Path) : List Path :=
  paths.foldl (fun arranged path => place path arranged) []

/-- The files that the inputs stand for, each of them once. -/
def expand (disk : Disk) (inputs : List String) : List Log.Event × Except Invalid (List Path) :=
  let (events, result) := findAll disk inputs
  (events, result.map arrange)

end StyleDoc.Inputs
