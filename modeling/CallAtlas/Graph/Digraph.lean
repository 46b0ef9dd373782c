import CallAtlas.Ordered.Map
import CallAtlas.Ordered.Set
/-!
# Directed graphs

A directed graph is a map from its keys to their successor sets. A node is a key once it was added
or has a successor; other successors are nodes without being keys. Rows and successors are ordered,
so that two graphs with the same keys and edges are equal.
-/

namespace CallAtlas

/-- A directed graph. -/
@[ext]
structure Digraph (α : Type) [Ord α] where
  /-- The successors of each key. -/
  rows : OrderedMap α (OrderedSet α)

namespace Digraph

variable {α : Type} [Ord α]

def empty : Digraph α := ⟨∅⟩

instance : EmptyCollection (Digraph α) := ⟨empty⟩
instance : Inhabited (Digraph α) := ⟨empty⟩

instance [DecidableEq α] : DecidableEq (Digraph α) := fun g h =>
  decidable_of_iff (g.rows = h.rows) Digraph.ext_iff.symm

def keys (g : Digraph α) : List α := g.rows.keys

def hasKey (g : Digraph α) (a : α) : Bool := g.rows.contains a

def successors? (g : Digraph α) (a : α) : Option (OrderedSet α) := g.rows.get? a

/-- The successors of a node in order; a node that is no key has none. -/
def successors (g : Digraph α) (a : α) : List α :=
  match g.successors? a with
  | some s => s.toList
  | none => []

/-- The edges, ordered by source and then by destination. -/
def edges (g : Digraph α) : List (α × α) :=
  g.rows.entries.flatMap fun (a, s) => s.toList.map fun b => (a, b)

def keyCount (g : Digraph α) : Nat := g.rows.size

def edgeCount (g : Digraph α) : Nat := g.edges.length

def isEmpty (g : Digraph α) : Bool := g.rows.entries.isEmpty

/-- The keys with their successors as lists. -/
def toRows (g : Digraph α) : OrderedMap α (List α) := g.rows.mapValues OrderedSet.toList

variable [Std.TransOrd α]

/-- The graph with a key, which keeps its successors if it has any. -/
def addKey (g : Digraph α) (a : α) : Digraph α :=
  ⟨g.rows.upsert a fun s => s.getD ∅⟩

/-- The graph with an edge, whose source becomes a key. -/
def addEdge (g : Digraph α) (a b : α) : Digraph α :=
  ⟨g.rows.upsert a fun s => (s.getD ∅).insert b⟩

/-- The graph with the keys and edges of both. -/
def merge (g h : Digraph α) : Digraph α :=
  ⟨h.rows.entries.foldl (fun rows (a, s) => rows.upsert a fun t => (t.getD ∅).union s) g.rows⟩

/-- The graph of successor lists. -/
def ofRows (rows : OrderedMap α (List α)) : Digraph α := ⟨rows.mapValues OrderedSet.ofList⟩

def ofEdges (edges : List (α × α)) : Digraph α :=
  edges.foldl (fun g (a, b) => g.addEdge a b) ∅

/-- The keys and their successors. -/
def nodes (g : Digraph α) : OrderedSet α :=
  g.rows.entries.foldl (fun nodes (_, s) => nodes.union s) (OrderedSet.ofList g.keys)

end Digraph

end CallAtlas
