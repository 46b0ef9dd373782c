import CallAtlas.Diagram.Mermaid
import CallAtlas.Diagram.Dot
/-!
# Diagrams of a project

The diagrams of a call graph, in which the edges of the given cycles stand out, and of an import
graph.
-/

namespace CallAtlas.Diagram

structure Drawing where
  callGraph : String
  /-- The diagram of the import graph, unless that graph is missing or empty. -/
  importGraph : Option String
deriving DecidableEq, Repr, Inhabited

def Format.callGraph : Format → Layout → String
  | .mermaid => Mermaid.callGraph
  | .dot => Dot.callGraph

def Format.importGraph : Format → Layout → String
  | .mermaid => Mermaid.importGraph
  | .dot => Dot.importGraph

/-- Draws a call graph with its cycles, and an import graph. -/
def draw (format : Format) (calls : Digraph String) (imports : Option (Digraph String))
    (cs : List (List String)) : Drawing where
  callGraph := format.callGraph (.clustered calls (cycleEdges cs))
  importGraph :=
    match imports with
    | some g => if g.isEmpty then none else some (format.importGraph (.flat g))
    | none => none

end CallAtlas.Diagram
