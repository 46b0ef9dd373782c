import CallAtlas.Graph.Statistics
import CallAtlas.Survey.Report
/-!
# Aggregation

The reports on the files of a project make up its graphs. They are taken in the order of the paths,
so that the order in which they arrive does not matter. A module that several files contribute to is
a collision.
-/

namespace CallAtlas.Survey

/-- What the files of a project add up to. -/
structure Aggregation where
  /-- Scopes and what they call. -/
  callGraph : NameGraph := ∅
  /-- Modules and what they import. -/
  importGraph : NameGraph := ∅
  /-- The number of files that contribute. -/
  analyzed : Nat := 0
  /-- The files that failed with the reasons, in the order of paths. -/
  failures : List (Path × Failure) := []
  /-- The files of each module, in the order of paths. -/
  origins : OrderedMap String (List Path) := ∅
deriving Inhabited

namespace Aggregation

/-- The modules that several files contribute to. -/
def collisions (a : Aggregation) : OrderedMap String (List Path) :=
  ⟨a.origins.entries.filter fun (_, paths) => 1 < paths.length,
    a.origins.ascending.filter _⟩

/-- Whether a file failed. -/
def isPartial (a : Aggregation) : Bool := !a.failures.isEmpty

def statistics (a : Aggregation) : Statistics := .ofGraphs a.analyzed a.callGraph a.importGraph

def document (a : Aggregation) : GraphDocument := .ofGraphs a.callGraph a.importGraph

/-- Takes in the next report. -/
def add (a : Aggregation) (r : Report) : Aggregation :=
  match r.outcome with
  | .ok result =>
    { a with
      callGraph := a.callGraph.merge result.callGraph
      importGraph := a.importGraph.merge result.importGraph
      analyzed := a.analyzed + 1
      origins := a.origins.upsert result.module fun paths => paths.getD [] ++ [r.path] }
  | .error e => { a with failures := a.failures ++ [(r.path, e)] }

/-- What reports add up to, in whatever order they arrive. -/
def ofReports (reports : List Report) : Aggregation :=
  (reports.mergeSort fun r s => (compare r.path s.path).isLE).foldl add {}

end Aggregation

end CallAtlas.Survey
