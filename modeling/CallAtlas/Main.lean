import CallAtlas.Command.Run
/-!
# The program

The outer layer: it takes a snapshot of the files that a command line may look at, carries the
command line out on it, and brings the changes back to the disk.
-/

open CallAtlas

def placeOf (path : String) : Place := (Path.segmentsOf path).filter (· != "")

/-- A tree with the directories in which a place lies, and one at the place itself. -/
def putDirectories (t : FileTree) (place : Place) : FileTree :=
  (List.range place.length).foldl (fun t n => t.put (place.take (n + 1)) .directory) t

/-- Takes in what stands at a place of the disk and, for a directory, what lies below it. A link is
kept as one to the place where it ends, which is taken in as well, and a link that leads nowhere as
one without a target. -/
partial def takeIn (t : FileTree) (place : Place) : IO FileTree := do
  let path := (← IO.currentDir) / FileTree.absolute place
  match (← path.symlinkMetadata).type with
  | .dir =>
    let mut t := t.put place .directory
    for entry in ← path.readDir do
      t ← takeIn t (place ++ [entry.fileName])
    return t
  | .file =>
    try
      return t.put place (.file (← IO.FS.readBinFile path))
    catch _ => return t
  | .symlink =>
    try
      let target := (← IO.FS.realPath path).toString
      let t := t.put place (.link target)
      let last := placeOf target
      -- a directory in which the link itself lies is there already
      if (t.entry? last).isSome then return t else takeIn (putDirectories t last) last
    catch _ => return t.put place (.link "")
  | .other => return t

/-- The snapshot of the disk below the working directory. -/
def takeSnapshot : IO FileTree := do
  let place := placeOf (← IO.currentDir).toString
  takeIn (putDirectories ⟨∅, place⟩ place) place

/-- Brings the changes from one snapshot to the next one to the disk. -/
def bringBack (before after : FileTree) : IO Unit := do
  for (place, _) in before.entries.entries do
    if (after.entry? place).isNone then IO.FS.removeFile (FileTree.absolute place)
  for (place, e) in after.entries.entries do
    match e with
    | .directory => if (before.entry? place).isNone then IO.FS.createDir (FileTree.absolute place)
    | .file content =>
      if before.entry? place != some e then
        IO.FS.writeBinFile (FileTree.absolute place) content
    | .link _ => pure ()

def main (args : List String) : IO UInt32 := do
  let start ← IO.monoNanosNow
  let quiet := Command.asksForQuiet (← IO.getEnv "CALLMAP_QUIET")
  let before ← takeSnapshot
  let answer := Command.run args quiet before
  bringBack before answer.files
  let output ← IO.getStdout
  let theme := if ← output.isTty then Console.Theme.colored else Console.Theme.plain
  let time := Console.Elapsed.ofNanoseconds ((← IO.monoNanosNow) - start)
  output.putStr (Console.written .output theme time answer.lines)
  (← IO.getStderr).putStr (Console.written .error theme time answer.lines)
  return answer.exitCode.toUInt32
