import CallAtlas.Graph.Cycle
/-!
# Layouts of diagrams

What a diagram shows, whatever language it is written in: the nodes of a graph by number, the modules
that group them, and the edges with a flag for those that lie on a cycle.
-/

namespace CallAtlas.Diagram

/-- The module of an identifier: everything before its first dot. -/
def moduleOf (node : String) : String := String.ofList (node.toList.takeWhile (· != '.'))

/-- The nodes of a graph by module. -/
def moduleGroups (g : Digraph String) : OrderedMap String (List String) :=
  g.nodes.toList.foldl (fun groups node =>
    groups.upsert (moduleOf node) fun members => members.getD [] ++ [node]) ∅

/-- An edge between numbered nodes. -/
structure Connection where
  source : Nat
  /-- The number of the destination. -/
  target : Nat
  /-- Whether the edge lies on a cycle. -/
  inCycle : Bool
deriving DecidableEq, Repr, Inhabited

/-- What a diagram shows. -/
structure Layout where
  /-- The nodes; the number of a node is its position. -/
  labels : List String
  /-- The numbers of the nodes of each module; none in a flat layout. -/
  clusters : OrderedMap String (List Nat)
  connections : List Connection

namespace Layout

/-- The connections of the edges of a graph whose nodes are `labels`. -/
def connect (labels : List String) (highlighted : List (String × String)) (g : Digraph String) :
    List Connection :=
  g.edges.map fun (a, b) =>
    ⟨labels.idxOf a, labels.idxOf b, highlighted.contains (a, b)⟩

/-- The layout of a call graph, grouped by module, in which the given edges are highlighted. -/
def clustered (g : Digraph String) (highlighted : List (String × String)) : Layout :=
  let labels := g.nodes.toList
  ⟨labels, (moduleGroups g).mapValues fun members => members.map labels.idxOf,
    connect labels highlighted g⟩

/-- The layout of an import graph, without groups and highlights. -/
def flat (g : Digraph String) : Layout :=
  let labels := g.nodes.toList
  ⟨labels, ∅, connect labels [] g⟩

def label (l : Layout) (i : Nat) : String := l.labels.getD i ""

end Layout

/-- The languages in which diagrams are written. -/
inductive Format where
  | mermaid
  /-- Digraphs of Graphviz. -/
  | dot
deriving DecidableEq, Repr, Inhabited

namespace Format

def name : Format → String
  | mermaid => "mermaid"
  | dot => "dot"

def extension : Format → String
  | mermaid => "mmd"
  | dot => "dot"

def ofName? : String → Option Format
  | "mermaid" => some mermaid
  | "dot" => some dot
  | _ => none

end Format

/-- How both languages call a numbered node. -/
def vertex (i : Nat) : String := "n" ++ toString i

/-- Lines with a line end behind each. -/
def joinLines (lines : List String) : String := "\n".intercalate lines ++ "\n"

end CallAtlas.Diagram
