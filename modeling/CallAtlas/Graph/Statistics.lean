import CallAtlas.Graph.Digraph
/-!
# Statistics of a pair of graphs

The sizes of a call graph and an import graph, and the text that reports them.
-/

namespace CallAtlas

/-- The sizes of the graphs of a project. -/
structure Statistics where
  files : Nat
  /-- The number of keys of the call graph. -/
  scopes : Nat
  /-- The number of edges of the call graph. -/
  callEdges : Nat
  /-- The number of keys of the import graph. -/
  modules : Nat
  /-- The number of edges of the import graph. -/
  importEdges : Nat
deriving DecidableEq, Repr, Inhabited

namespace Statistics

def ofGraphs (files : Nat) (calls imports : Digraph String) : Statistics :=
  ⟨files, calls.keyCount, calls.edgeCount, imports.keyCount, imports.edgeCount⟩

def report (s : Statistics) : String :=
  "Dependency Graph Statistics:\n" ++
  "  Files: " ++ toString s.files ++ "\n" ++
  "  Scopes: " ++ toString s.scopes ++ " (" ++ toString s.callEdges ++ " call edges)\n" ++
  "  Importing modules: " ++ toString s.modules ++ " (" ++ toString s.importEdges ++
    " import edges)\n"

end Statistics

end CallAtlas
