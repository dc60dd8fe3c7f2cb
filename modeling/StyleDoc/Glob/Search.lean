import StyleDoc.Files.Disk
import StyleDoc.Glob.Pattern

/-!
Finding the files that a glob pattern matches. The search walks the steps of the pattern from the
current directory or from the root; the paths it finds are spelled as the pattern spells them, and
a search below the current directory does not spell that directory.
-/

namespace StyleDoc.Glob

/-- The path of a name inside a directory that the search has come to. -/
def nextPath (directory : Path) (name : String) : Path :=
  if directory.components = [.here] then { text := name } else directory.join name

/-- The dots that stand for the directory itself and for the one above it. They are matched only by
a pattern that begins with a dot. -/
def matchingDots (tokens : List Token) : List String :=
  if tokens.head? = some (.char '.') then
    [".", ".."].filter fun dots => matchesName tokens dots.toList
  else []

/-- The paths that one step leads to. -/
def Step.reach (disk : Disk) (origin : Path) : Step → List Path
  | .name text =>
      let next := nextPath origin text
      let found :=
        if text = "." || text = ".." then disk.isDirectory origin else disk.contains next
      if found then [next] else []
  | .entries tokens =>
      if disk.isDirectory origin then
        ((disk.children origin).filter fun name => matchesName tokens name.toList).map
            (nextPath origin) ++
          (matchingDots tokens).map origin.join
      else []
  | .below tokens =>
      (disk.descendants origin).filterMap fun names =>
        match names, names.getLast? with
        | first :: rest, some last =>
            if matchesName tokens last.toList then some (rest.foldl Path.join (nextPath origin first))
            else none
        | _, _ => none

/-- The paths at the end of the steps. -/
def walk (disk : Disk) (origin : Path) : List Step → List Path
  | [] => [origin]
  | step :: steps => (step.reach disk origin).flatMap fun path => walk disk path steps

/-- The files that a pattern matches, in no particular order. -/
def Pattern.files (pattern : Pattern) (disk : Disk) : List Path :=
  if pattern.findsFiles then
    let start : Path := { text := if pattern.absolute then "/" else "." }
    (walk disk start pattern.steps).filter disk.isFile
  else []

end StyleDoc.Glob
