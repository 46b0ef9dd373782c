import CallAtlas.Diagram.Layout
/-!
# Graphviz digraphs

A call graph has one cluster per module; edges on cycles carry attributes of their own.
-/

namespace CallAtlas.Diagram.Dot

/-- A quoted label, in which quotation marks and backslashes are escaped. -/
def quoted (text : String) : String :=
  "\"" ++ String.ofList (text.toList.flatMap fun c =>
    if c == '\\' || c == '"' then ['\\', c] else [c]) ++ "\""

def cycleAttributes : String := "color=\"red\", penwidth=3, label=\"cycle\""

def connection (c : Connection) : String :=
  "  " ++ vertex c.source ++ " -> " ++ vertex c.target ++
    (if c.inCycle then " [" ++ cycleAttributes ++ "];" else ";")

def node (indent : String) (i : Nat) (label : String) : String :=
  indent ++ vertex i ++ " [label=" ++ quoted label ++ "];"

def cluster (l : Layout) (position : Nat) (module : String) (members : List Nat) : List String :=
  ["  subgraph cluster_" ++ toString position ++ " \x7b", "    label=" ++ quoted module ++ ";"] ++
  members.map (fun i => node "    " i (l.label i)) ++ ["  \x7d"]

/-- A call graph grouped by module, with the edges on cycles marked. -/
def callGraph (l : Layout) : String :=
  joinLines (["digraph call_graph \x7b", "  rankdir=TB;", "  node [shape=box];"] ++
    (l.clusters.entries.zipIdx.flatMap fun ((module, members), i) => cluster l i module members) ++
    l.connections.map connection ++ ["\x7d"])

def importGraph (l : Layout) : String :=
  joinLines (["digraph import_graph \x7b"] ++
    (l.labels.zipIdx.map fun (label, i) => node "  " i label) ++
    l.connections.map connection ++ ["\x7d"])

end CallAtlas.Diagram.Dot
