import StyleDoc.Program

/-!
The command line. A run is computed on a value: the part of the disk that its arguments can reach is
looked at first, with the contents of the files that will be documented, and what the run adds to
it is written afterwards.
-/

namespace StyleDoc.CommandLine

/-- The text of a place that the operating system understands. -/
def absoluteText (place : Location) : String :=
  "/" ++ String.intercalate "/" place

/-- What is found at a place. Contents are left out. -/
def look (place : Location) : IO (Option Entry) := do
  let path := System.mkFilePath [absoluteText place]
  if ← path.isDir then return some .directory
  else if ← path.pathExists then return some (.file .empty)
  else return none

def names (place : Location) : IO (List String) := do
  let entries ← (System.mkFilePath [absoluteText place]).readDir
  return (entries.map (·.fileName)).toList

def record (disk : Disk) (place : Location) : IO Disk := do
  match ← look place with
  | some entry => return if place = [] then disk else disk.put place entry
  | none => return disk

/-- Records everything below a place. -/
partial def recordBelow (disk : Disk) (place : Location) : IO Disk := do
  let mut disk ← record disk place
  if disk.get? place = some .directory then
    for name in ← names place do
      disk ← recordBelow disk (place ++ [name])
  return disk

/-- Records what a path or a pattern can reach from a place, and the entries of the directories at
its end. -/
def recordPath (disk : Disk) (place : Location) : List String → IO Disk
  | [] => do
      let mut disk ← record disk place
      if disk.get? place = some .directory then
        for name in ← names place do
          disk ← record disk (place ++ [name])
      return disk
  | segment :: rest => do
      let disk ← record disk place
      if disk.get? place ≠ some .directory then return disk
      else if segment = "" || segment = "." then recordPath disk place rest
      else if segment = ".." then recordPath disk place.dropLast rest
      else if segment = "**" then recordBelow disk place
      else if segment.any fun c => ['*', '?', '['].contains c then
        (← names place).foldlM (fun disk name => recordPath disk (place ++ [name]) rest) disk
      else recordPath disk (place ++ [segment]) rest

/-- Records the contents of a file. -/
def recordContent (disk : Disk) (path : Path) : IO Disk := do
  match disk.follow path with
  | .ok place => return disk.put place (.file (← IO.FS.readBinFile (absoluteText place)))
  | .error _ => return disk

/-- The part of the disk that a run can reach. -/
def survey (options : Options) : IO Disk := do
  let here := ((← IO.currentDir).toString.splitOn "/").filter (· ≠ "")
  let mut disk := Disk.empty here
  for text in options.inputs ++ options.output.toList do
    let path : Path := { text }
    disk ← recordPath disk (disk.start path) path.segments
  match (Inputs.expand disk options.inputs).2 with
  | .ok paths => paths.foldlM recordContent disk
  | .error _ => return disk

/-- Makes the directories and writes the files that a run has added. -/
def apply (changes : List (Location × Entry)) : IO Unit := do
  for (place, entry) in changes.mergeSort fun a b => a.1.length ≤ b.1.length do
    match entry with
    | .directory => IO.FS.createDir (absoluteText place)
    | .file content => IO.FS.writeBinFile (absoluteText place) content

partial def readAll (stream : IO.FS.Stream) (read : ByteArray) : IO ByteArray := do
  let more ← stream.read 65536
  if more.isEmpty then return read else readAll stream (read ++ more)

end StyleDoc.CommandLine

open StyleDoc in
def main (arguments : List String) : IO UInt32 := do
  match Options.ofArguments arguments with
  | .error fault =>
      IO.eprintln s!"error: {fault.message}"
      return 2
  | .ok options =>
      let disk ← CommandLine.survey options
      let input ← if options.inputs = [] then CommandLine.readAll (← IO.getStdin) .empty
        else pure .empty
      let logSetting ← IO.getEnv "RUST_LOG"
      let result := Program.run options { disk, input, logSetting }
      CommandLine.apply (disk.added result.disk)
      IO.print result.output
      IO.eprint result.errors
      return result.code.toUInt32
