import CallAtlas.Graph.Digraph
/-!
# Cycles of directed graphs

`cycles` searches a graph depth first. A successor on the current path closes a cycle; a successor
that an earlier branch has visited is not entered again. Roots and successors are taken in order, so
that the result depends on the edges alone. A cycle is given as a closed path, whose first and last
nodes are the same.

`canonicalRotation` turns a cycle so that its smallest node stands first, and `dedupRotations`
keeps one of each class of rotations.
-/

namespace CallAtlas

variable {α : Type} [Ord α]

/-- What a cycle search needs to know of a finite graph. -/
structure Adjacency (α : Type) [Ord α] where
  /-- The nodes from which searches start, in any order. -/
  roots : List α
  /-- The successors of a node, in any order and with repetitions. -/
  next : α → List α
  /-- A node from which no search starts has no successors. -/
  next_eq_nil : ∀ a, (∀ r ∈ roots, compare a r ≠ .eq) → next a = []

/-- A graph as a cycle search sees it. -/
def Digraph.adjacency (g : Digraph α) : Adjacency α where
  roots := g.keys
  next := g.successors
  next_eq_nil := fun a h => by simp [successors, successors?, OrderedMap.get?_eq_none h]

/-- Successor lists, in any order and with repetitions, as a cycle search sees them. -/
def Adjacency.ofRows (rows : OrderedMap α (List α)) : Adjacency α where
  roots := rows.keys
  next := fun a => (rows.get? a).getD []
  next_eq_nil := fun a h => by simp [OrderedMap.get?_eq_none h]

/-- Successor lists of distinct nodes in any order, as a cycle search sees them. -/
def Adjacency.ofUnordered (rows : List (α × List α)) : Adjacency α where
  roots := rows.map (·.1)
  next := fun a => (OrderedMap.lookup a rows).getD []
  next_eq_nil := fun a h => by
    have hnone : OrderedMap.lookup a rows = none :=
      OrderedMap.lookup_eq_none_of_compare fun e he => h e.1 (List.mem_map.2 ⟨e, he, rfl⟩)
    simp [hnone]

namespace Cycle

/-- A node on the current path with the successors still to be examined. -/
structure Frame (α : Type) where
  node : α
  /-- Its successors from the next one on. -/
  pending : List α

/-- The state of a search. -/
structure Search (α : Type) [Ord α] where
  /-- Every node entered so far. -/
  visited : OrderedSet α := ∅
  /-- The nodes of the path with their positions on it. -/
  onPath : OrderedMap α Nat := ∅
  /-- The current path, innermost node first. -/
  path : List (Frame α) := []
  /-- The cycles found so far, latest first. -/
  found : List (List α) := []

namespace Search

variable [Std.TransOrd α]

/-- The successors of a node in order and without repetitions. -/
def orderedNext (g : Adjacency α) (a : α) : List α := (OrderedSet.ofList (g.next a)).toList

def enter (g : Adjacency α) (s : Search α) (a : α) : Search α :=
  { s with
    visited := s.visited.insert a
    onPath := s.onPath.insert a s.path.length
    path := ⟨a, orderedNext g a⟩ :: s.path }

/-- Examines the next successor of the innermost node, or leaves that node. -/
def step (g : Adjacency α) (s : Search α) : Search α :=
  match s.path with
  | [] => s
  | ⟨a, []⟩ :: below => { s with path := below, onPath := s.onPath.erase a }
  | ⟨a, b :: pending⟩ :: below =>
    let s := { s with path := ⟨a, pending⟩ :: below }
    match s.onPath.get? b with
    -- the path from the successor on is closed by the edge back to it
    | some start =>
      { s with found := ((s.path.map (·.node)).reverse.drop start ++ [b]) :: s.found }
    | none => if s.visited.contains b then s else s.enter g b

/-- Steps until the path is empty, at most `fuel` times. -/
def run (g : Adjacency α) : (fuel : Nat) → Search α → Search α
  | 0, s => s
  | fuel + 1, s =>
    match s.path with
    | [] => s
    | _ :: _ => run g fuel (s.step g)

def fromRoot (g : Adjacency α) (fuel : Nat) (s : Search α) (root : α) : Search α :=
  if s.visited.contains root then s else run g fuel (s.enter g root)

end Search

/-- A bound on the steps of a search: every node is left once and every edge examined once, and
nodes that are no roots have no successors of their own. -/
def stepBound (g : Adjacency α) : Nat :=
  2 * (g.roots.length + (g.roots.flatMap g.next).length) + 1

end Cycle

variable [Std.TransOrd α]

/-- The cycles of a graph in the order in which the search closes them. -/
def cycles (g : Adjacency α) : List (List α) :=
  let roots := (OrderedSet.ofList g.roots).toList
  (roots.foldl (Cycle.Search.fromRoot g (Cycle.stepBound g)) {}).found.reverse

/-- The position of the first smallest element of a list. -/
def smallestIndex : List α → Nat
  | [] => 0
  | a :: rest => if rest.all fun b => (compare a b).isLE then 0 else smallestIndex rest + 1

/-- The cycle with its smallest node first. A list without an open part stays as it is. -/
def canonicalRotation (cycle : List α) : List α :=
  let openPart := cycle.dropLast
  if openPart.isEmpty then cycle
  else
    let start := smallestIndex openPart
    let rotated := openPart.drop start ++ openPart.take start
    rotated ++ rotated.take 1

/-- Keeps the cycles whose canonical rotation has not been seen, from left to right. -/
def dedupAfter [DecidableEq α] (seen : List (List α)) : List (List α) → List (List α)
  | [] => []
  | c :: rest =>
    let key := canonicalRotation c
    if key ∈ seen then dedupAfter seen rest else c :: dedupAfter (key :: seen) rest

/-- The first cycle of each class of rotations. -/
def dedupRotations [DecidableEq α] (cs : List (List α)) : List (List α) := dedupAfter [] cs

/-- The edges along cycles, in order and without repetitions. -/
def cycleEdges (cs : List (List α)) : List (α × α) :=
  (Digraph.ofEdges (cs.flatMap fun c => c.zip c.tail)).edges

end CallAtlas
