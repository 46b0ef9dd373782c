import CallAtlas.Command.Invocation
import CallAtlas.Console.Line
import CallAtlas.Settings.File
/-!
# Carrying out a command line

A run goes from one file tree to the next, and answers with an exit code and a report. Code 1 says
that the run failed, and code 2 that some files could not be analyzed or that the command line was
not understood. A quiet run leaves out every part of its report but the failure that stops it.
-/

namespace CallAtlas.Command

open Console (Line)
open Survey (Aggregation Options)

structure Answer where
  exitCode : Nat
  lines : List Line
  files : FileTree

/-- Whether the value of the variable `CALLMAP_QUIET` asks for no report. -/
def asksForQuiet : Option String → Bool
  | none => false
  | some value =>
    value == "1" || String.ofList (value.toList.map Char.toLower) == "true"

def surveyOptions (s : Settings) : Options where
  workers := s.workers.getD 1
  respectIgnore := s.respectIgnore
  exclude := s.exclude
  maxDepth := s.maxDepth

/-! ## Reports -/

/-- Parts of a report that a quiet run leaves out. -/
def unlessQuiet (quiet : Bool) (lines : List Line) : List Line := if quiet then [] else lines

def summaryLines (quiet : Bool) (a : Aggregation) : List Line :=
  unlessQuiet quiet [.summary a.statistics]

/-- The report on what the files add up to. -/
def aggregationLines (quiet : Bool) (a : Aggregation) : List Line :=
  let collisions := a.collisions.entries
  unlessQuiet quiet <|
    [.section "Dependency graph", .table (.ofStatistics a.statistics)] ++
      (if collisions.isEmpty then []
        else
          [.warning (toString collisions.length ++
              " module names are shared by several files; their scopes were merged"),
            .table (.ofCollisions (collisions.map fun (module, files) =>
              (module, files.map (·.text))))]) ++
      (if a.isPartial then
          [.warning (toString a.failures.length ++ " files could not be analyzed"),
            .table (.ofFailures (a.failures.map fun (path, e) => (path.text, e.message)))]
        else [])

def cycleLines (quiet : Bool) (cs : List (List String)) : List Line :=
  unlessQuiet quiet <|
    .section "Cycles" ::
      (if cs.isEmpty then [.success "No cycles found"]
        else cs.zipIdx.map fun (nodes, i) => .cycle (i + 1) nodes)

def artifactLines (quiet : Bool) (written : List Path) : List Line :=
  unlessQuiet quiet (.section "Artifacts" :: written.map fun p => .artifact p.text)

def elapsedLines (quiet : Bool) : List Line := unlessQuiet quiet [.elapsed]

/-! ## Tasks -/

/-- What a task reports before it starts. -/
def opening (quiet : Bool) (s : Settings) : Task → List Line
  | .analyze root _ =>
    unlessQuiet quiet [.header ("Analyzing " ++ root.text), .info "Output" s.output.text]
  | .graph root => unlessQuiet quiet [.phase ("Building graphs for " ++ root.text)]
  | .cycles graph _ =>
    unlessQuiet quiet
      [.phase ("Detecting cycles in " ++ (graph.getD (Artifacts.graphPath ⟨s.output⟩)).text)]
  | .export graph _ =>
    unlessQuiet quiet
      [.phase ("Rendering diagrams from " ++ (graph.getD (Artifacts.graphPath ⟨s.output⟩)).text),
        .status "📊" "Format" s.format.name]
  | .init _ => []

/-- Carries out a task on what is there. The answer is what it reports in the end, and whether
something was left out. -/
def carryOut (quiet : Bool) (s : Settings) : Task → Action (List Line × Bool)
  | .analyze root stages => do
    let outcome ← Pipeline.run ⟨surveyOptions s, ⟨s.output⟩, stages, s.format, s.dedupeCycles⟩ root
    return (summaryLines quiet outcome.aggregation ++ aggregationLines quiet outcome.aggregation ++
      (match outcome.cycles with
        | some cs => cycleLines quiet cs
        | none => []) ++ artifactLines quiet outcome.written, outcome.aggregation.isPartial)
  | .graph root => do
    let (aggregation, written) ← Pipeline.graphStage (surveyOptions s) ⟨s.output⟩ root
    return (aggregationLines quiet aggregation ++ artifactLines quiet [written] ++
      elapsedLines quiet, aggregation.isPartial)
  | .cycles graph source => do
    let artifacts : Artifacts := ⟨s.output⟩
    let cs ← Pipeline.cyclesFromArtifact (graph.getD artifacts.graphPath) artifacts source
      s.dedupeCycles
    return (cycleLines quiet cs ++ artifactLines quiet [artifacts.cyclesPath] ++
      elapsedLines quiet, false)
  | .export graph cycles => do
    let artifacts : Artifacts := ⟨s.output⟩
    let written ← Pipeline.exportFromArtifacts (graph.getD artifacts.graphPath) cycles artifacts
      s.format
    return (artifactLines quiet written ++ elapsedLines quiet, false)
  | .init _ => return ([], false)

def runTask (quiet : Bool) (s : Settings) (task : Task) (t : FileTree) : Answer :=
  match (carryOut quiet s task).run t with
  | (.ok (lines, left), t) => ⟨if left then 2 else 0, opening quiet s task ++ lines, t⟩
  | (.error e, t) => ⟨1, opening quiet s task ++ [.failure e.messageWithCause], t⟩

def createSettings (quiet : Bool) (path : Path) (force : Bool) (t : FileTree) : Answer :=
  match (Settings.saving {} path force).run t with
  | (.ok (), t) => ⟨0, unlessQuiet quiet [.success ("Wrote " ++ path.text)], t⟩
  | (.error e, t) => ⟨1, [.failure e.messageWithCause], t⟩

def Invocation.run (quiet : Bool) (i : Invocation) (t : FileTree) : Answer :=
  match i.task with
  | .init force => createSettings quiet (i.settingsFile.getD Settings.defaultFile) force t
  | task =>
    match Settings.load t i.settingsFile with
    | .ok s => runTask quiet (i.overrides.apply s) task t
    | .error e => ⟨1, [.failure e.messageWithCause], t⟩

namespace Wording

/-- The answer where there is no command to carry out. -/
def answer (w : Wording) (words : List String) (t : FileTree) : Stop → Answer
  | .usage command e => ⟨2, [.verbatim .error (w.refusal words command e)], t⟩
  | .help form command => ⟨0, [.verbatim .output (w.help form command)], t⟩
  | .version => ⟨0, [.verbatim .output (program ++ " " ++ Command.version ++ "\n")], t⟩
  | .noWords => ⟨2, [.verbatim .error (w.help .short none)], t⟩

def run (w : Wording) (words : List String) (quiet : Bool) (t : FileTree) : Answer :=
  match Invocation.ofWords words with
  | .error stop => w.answer words t stop
  | .ok i => i.run quiet t

end Wording

/-- Carries out a command line in the standard wording. -/
def run : List String → Bool → FileTree → Answer := Wording.standard.run

end CallAtlas.Command
