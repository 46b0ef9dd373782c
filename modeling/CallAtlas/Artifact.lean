import CallAtlas.Diagram.Drawing
import CallAtlas.Document
import CallAtlas.Failure
import CallAtlas.Files.FileTree
/-!
# Artifacts

The files that stages leave behind in an output directory, and how they are written and read. What
changes files is an `Action`: it goes from one file tree to the next, also where it fails.
-/

namespace CallAtlas

/-- Something that is done to a file tree and may fail on the way. -/
abbrev Action (α : Type) := ExceptT Failure (StateM FileTree) α

namespace Action

def change (f : FileTree → Except Files.Fault FileTree) : Action Unit := do
  match f (← get) with
  | .ok t => set t
  | .error fault => throw (.io fault)

/-- Asks the tree something that may fail. -/
def ask {α : Type} (f : FileTree → Except Files.Fault α) : Action α := do
  match f (← get) with
  | .ok a => pure a
  | .error fault => throw (.io fault)

end Action

/-- The artifacts below an output directory. -/
structure Artifacts where
  directory : Path
deriving DecidableEq, Repr

namespace Artifacts

def graphPath (a : Artifacts) : Path := a.directory.join "call_graph.json"

def cyclesPath (a : Artifacts) : Path := a.directory.join "cycles.json"

def diagramsDirectory (a : Artifacts) : Path := a.directory.join "diagrams"

def diagramPath (a : Artifacts) (name : String) (format : Diagram.Format) : Path :=
  a.diagramsDirectory.join (name ++ "." ++ format.extension)

/-- Writes a document, for which the directory is created if it is missing. -/
def writeDocument (path : Path) (text : String) : Action Unit := do
  match path.parent? with
  | some directory =>
    if !directory.text.isEmpty then Action.change (·.createDirectories directory)
  | none => pure ()
  Action.change (·.writeText path text)

def writeGraph (a : Artifacts) (d : GraphDocument) : Action Path := do
  writeDocument a.graphPath d.write
  return a.graphPath

def writeCycles (a : Artifacts) (cs : List (List String)) : Action Path := do
  writeDocument a.cyclesPath (CycleList.write cs)
  return a.cyclesPath

/-- Writes the diagrams. Where there is no diagram of the imports, one of an earlier run is
removed. -/
def writeDiagrams (a : Artifacts) (format : Diagram.Format) (d : Diagram.Drawing) :
    Action (List Path) := do
  Action.change (·.createDirectories a.diagramsDirectory)
  let calls := a.diagramPath "call_graph" format
  Action.change (·.writeText calls d.callGraph)
  let imports := a.diagramPath "import_graph" format
  match d.importGraph with
  | some text =>
    Action.change (·.writeText imports text)
    return [calls, imports]
  | none =>
    if (← get).hasEntry imports then Action.change (·.removeFile imports)
    return [calls]

/-- The text of a document that a stage has left behind. -/
def readDocument (path : Path) (producer : Producer) : Action String := do
  if (← get).hasEntry path then Action.ask (·.readText path)
  else throw (.missingArtifact path producer)

def readGraph (path : Path) : Action GraphDocument := do
  match GraphDocument.read (← readDocument path .graph) with
  | .ok d => return d
  | .error e => throw (.malformedDocument path (.json e))

/-- Reads a document of cycles, all of which must be cycles. -/
def readCycles (path : Path) : Action (List (List String)) := do
  match CycleList.read (← readDocument path .cycles) with
  | .error e => throw (.malformedDocument path (.json e))
  | .ok cs =>
    match CycleList.flaw? cs with
    | some flaw => throw (.malformedDocument path (.cycle flaw))
    | none => return cs

end Artifacts

end CallAtlas
