import CallAtlas.Artifact
import CallAtlas.Survey.Workers
/-!
# The pipeline

A full run surveys a project, searches the call graph for cycles and draws diagrams, and leaves an
artifact behind after every stage. Each stage can also be run alone on what earlier stages have left
behind. Messages tell how far a full run has come.
-/

namespace CallAtlas

open Survey (Aggregation Options Progress)

/-- Which graph is searched for cycles. -/
inductive CycleSource where
  | callGraph
  | importGraph
deriving DecidableEq, Repr

/-- The cycles of a graph, of which rotations of earlier ones may be dropped. -/
def detectCycles (g : NameGraph) (dedupe : Bool) : List (List String) :=
  if dedupe then dedupRotations (cycles g.adjacency) else cycles g.adjacency

/-- The stages of a full run behind the survey. -/
structure Stages where
  cycles : Bool
  diagrams : Bool
deriving DecidableEq, Repr

namespace Stages

def all : Stages := ⟨true, true⟩

/-- The stages that are asked for. If none is, all are. -/
def select (cycles diagrams everything : Bool) : Stages :=
  if everything || (!cycles && !diagrams) then all else ⟨cycles, diagrams⟩

end Stages

namespace Pipeline

/-- Searches a written graph for cycles and writes them. -/
def cyclesFromArtifact (graph : Path) (a : Artifacts) (source : CycleSource) (dedupe : Bool) :
    Action (List (List String)) := do
  let d ← Artifacts.readGraph graph
  let g := match source with
    | .callGraph => d.calls
    | .importGraph => d.imports
  let cs := detectCycles g dedupe
  discard (a.writeCycles cs)
  return cs

/-- Draws written graphs. Cycles that are named must exist; those of the output directory are used if
they are there. -/
def exportFromArtifacts (graph : Path) (cycles : Option Path) (a : Artifacts)
    (format : Diagram.Format) : Action (List Path) := do
  let d ← Artifacts.readGraph graph
  let cs ← match cycles with
    | some path => Artifacts.readCycles path
    | none =>
      if (← get).hasEntry a.cyclesPath then Artifacts.readCycles a.cyclesPath else pure []
  a.writeDiagrams format (Diagram.draw format d.calls (some d.imports) cs)

/-- How a full run is carried out. -/
structure Plan where
  survey : Options := {}
  artifacts : Artifacts
  stages : Stages := .all
  format : Diagram.Format := default
  dedupe : Bool := false

/-- What a full run reports. -/
structure Outcome where
  aggregation : Aggregation
  cycles : Option (List (List String))
  written : List Path

def surveyed (o : Options) (root : Path) : Action Aggregation := do
  match (Survey.run (← get) o root).1 with
  | .ok a => return a
  | .error e => throw e

def graphStage (o : Options) (a : Artifacts) (root : Path) : Action (Aggregation × Path) := do
  let aggregation ← surveyed o root
  let written ← a.writeGraph aggregation.document
  return (aggregation, written)

def run (p : Plan) (root : Path) : Action Outcome := do
  let (aggregation, graph) ← graphStage p.survey p.artifacts root
  let (cycles, second) ←
    if p.stages.cycles then do
      let cs := detectCycles aggregation.callGraph p.dedupe
      pure (some cs, [← p.artifacts.writeCycles cs])
    else pure (none, [])
  let third ←
    if p.stages.diagrams then
      p.artifacts.writeDiagrams p.format
        (Diagram.draw p.format aggregation.callGraph (some aggregation.importGraph)
          (cycles.getD []))
    else pure []
  return ⟨aggregation, cycles, graph :: (second ++ third)⟩

/-! ### Messages -/

/-- Something that is done to a file tree and may fail on the way, and about which messages are
sent. -/
abbrev Telling (α : Type) := ExceptT Failure (StateM (FileTree × List Progress)) α

def tell (messages : List Progress) : Telling Unit :=
  modify fun (t, sent) => (t, sent ++ messages)

/-- Does something about which nothing is said. -/
def silently {α : Type} (x : Action α) : Telling α :=
  ExceptT.mk fun (t, sent) =>
    let (result, t) := x.run t
    (result, (t, sent))

/-- Surveys a project, whose reports come in the order in which they arrive. -/
def surveyTelling (o : Options) (root : Path) (arrive : List Path → List Survey.Report) :
    Telling Aggregation := do
  match Survey.discover (← get).1 o root with
  | .error e => throw e
  | .ok files =>
    tell (Progress.ofReports files.length (arrive files))
    return .ofReports (arrive files)

/-- Surveys a project and writes its graphs. -/
def graphStageTelling (o : Options) (a : Artifacts) (root : Path)
    (arrive : List Path → List Survey.Report) : Telling (Aggregation × Path) := do
  let aggregation ← surveyTelling o root arrive
  let written ← silently (a.writeGraph aggregation.document)
  return (aggregation, written)

/-- Carries out a full run and tells how far it has come. -/
def runTelling (p : Plan) (root : Path) (arrive : List Path → List Survey.Report) :
    Telling Outcome := do
  let (aggregation, graph) ← graphStageTelling p.survey p.artifacts root arrive
  let (cycles, second) ←
    if p.stages.cycles then do
      tell [.started .cycles aggregation.callGraph.keyCount]
      let cs := detectCycles aggregation.callGraph p.dedupe
      let written ← silently (p.artifacts.writeCycles cs)
      tell [.finished .cycles]
      pure (some cs, [written])
    else pure (none, [])
  let third ←
    if p.stages.diagrams then do
      tell [.started .export 0]
      let written ← silently (p.artifacts.writeDiagrams p.format
        (Diagram.draw p.format aggregation.callGraph (some aggregation.importGraph)
          (cycles.getD [])))
      tell [.finished .export]
      pure written
    else pure []
  return ⟨aggregation, cycles, graph :: (second ++ third)⟩

/-- The messages of a full run with one worker. -/
def progress (p : Plan) (t : FileTree) (root : Path) : List Progress :=
  ((runTelling p root (Survey.reports t p.survey)).run (t, [])).2.2

end Pipeline

end CallAtlas
