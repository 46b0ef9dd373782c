import CallAtlas.Diagram.Layout
/-!
# Mermaid flowcharts

Connections are styled by their position among all connections of the diagram, so that the styled
positions are collected while the connections are written.
-/

namespace CallAtlas.Diagram.Mermaid

/-- A quoted label, in which a quotation mark is written as an entity. -/
def quoted (text : String) : String :=
  "\"" ++ String.ofList (text.toList.flatMap fun c => if c == '"' then "#quot;".toList else [c])
    ++ "\""

def connection (c : Connection) : String :=
  "  " ++ vertex c.source ++ (if c.inCycle then " -->|cycle| " else " --> ") ++ vertex c.target

/-- The positions of the connections that lie on a cycle. -/
def styledPositions (cs : List Connection) : List Nat :=
  (cs.zipIdx.filter fun (c, _) => c.inCycle).map (·.2)

/-- The line that styles the connections on cycles, if there are any. -/
def styleLine (cs : List Connection) : List String :=
  match styledPositions cs with
  | [] => []
  | positions =>
    ["  linkStyle " ++ ",".intercalate (positions.map toString) ++ " stroke:red,stroke-width:3px;"]

def cluster (l : Layout) (position : Nat) (module : String) (members : List Nat) : List String :=
  ["  subgraph g" ++ toString position ++ " [" ++ quoted module ++ "]"] ++
  members.map (fun i => "    " ++ vertex i ++ "[" ++ quoted (l.label i) ++ "]") ++
  ["  end"]

/-- A call graph grouped by module, with the connections on cycles styled. -/
def callGraph (l : Layout) : String :=
  joinLines (["graph TD"] ++
    (l.clusters.entries.zipIdx.flatMap fun ((module, members), i) => cluster l i module members) ++
    l.connections.map connection ++ styleLine l.connections)

def importGraph (l : Layout) : String :=
  joinLines (["graph TD"] ++
    (l.labels.zipIdx.map fun (label, i) => "  " ++ vertex i ++ "[" ++ quoted label ++ "]") ++
    l.connections.map connection)

end CallAtlas.Diagram.Mermaid
