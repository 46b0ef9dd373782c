import CallAtlas.Proofs.Graph.Edges
/-!
# Graphs as unions

Merging graphs unites their keys and their edges. So a graph that is built by adding keys and edges
and by merging in graphs that were built in the same way holds what was added and nothing else: the
order of the additions, their grouping and their repetition leave no trace.
-/

namespace CallAtlas

namespace Digraph

variable {α : Type} [Ord α] [Std.TransOrd α]

/-- The graph with a key and further successors of it. -/
def addRow (g : Digraph α) (row : α × OrderedSet α) : Digraph α :=
  ⟨g.rows.upsert row.1 fun s => (s.getD ∅).union row.2⟩

theorem merge_eq_foldl (g h : Digraph α) : g.merge h = h.rows.entries.foldl addRow g := by
  rw [merge]
  induction h.rows.entries generalizing g with
  | nil => rfl
  | cons row rows ih => exact ih (g.addRow row)

variable [Std.LawfulEqOrd α] {g h k : Digraph α} {x y : α} {row : α × OrderedSet α}

theorem mem_keys_addRow : x ∈ (g.addRow row).keys ↔ x ∈ g.keys ∨ x = row.1 := by
  rw [mem_keys_iff, mem_keys_iff, successors?, successors?, addRow]
  by_cases hx : x = row.1
  · simp [hx, OrderedMap.get?_upsert_self]
  · simp [hx, OrderedMap.get?_upsert_ne hx]

theorem mem_edges_addRow :
    (x, y) ∈ (g.addRow row).edges ↔ (x, y) ∈ g.edges ∨ x = row.1 ∧ y ∈ row.2 := by
  rw [mem_edges_iff, mem_edges_iff, successors?, successors?, addRow]
  by_cases hx : x = row.1
  · have hunion : ∀ s : OrderedSet α, y ∈ s.union row.2 ↔ y ∈ row.2 ∨ y ∈ s :=
      fun s => OrderedSet.mem_foldl_insert
    subst hx
    rw [OrderedMap.get?_upsert_self]
    cases g.rows.get? row.1 with
    | none => simp [hunion]
    | some s => simp [hunion, or_comm]
  · simp [hx, OrderedMap.get?_upsert_ne hx]

theorem mem_keys_foldl_addRow (rows : List (α × OrderedSet α)) :
    x ∈ (rows.foldl addRow g).keys ↔ x ∈ g.keys ∨ x ∈ rows.map (·.1) := by
  induction rows generalizing g with
  | nil => simp
  | cons row rows ih =>
    rw [List.foldl_cons, ih, mem_keys_addRow, List.map_cons, List.mem_cons, or_assoc]

theorem mem_edges_foldl_addRow (rows : List (α × OrderedSet α)) :
    (x, y) ∈ (rows.foldl addRow g).edges ↔ (x, y) ∈ g.edges ∨ ∃ s, (x, s) ∈ rows ∧ y ∈ s := by
  induction rows generalizing g with
  | nil => simp
  | cons row rows ih =>
    rw [List.foldl_cons, ih, mem_edges_addRow, or_assoc]
    apply or_congr_right
    obtain ⟨a, s⟩ := row
    simp only [List.mem_cons, Prod.mk.injEq, or_and_right, exists_or, and_assoc, exists_and_left,
      exists_eq_left]

/-! ### Merging -/

theorem mem_keys_merge : x ∈ (g.merge h).keys ↔ x ∈ g.keys ∨ x ∈ h.keys := by
  rw [merge_eq_foldl, mem_keys_foldl_addRow]
  rfl

theorem mem_edges_merge : (x, y) ∈ (g.merge h).edges ↔ (x, y) ∈ g.edges ∨ (x, y) ∈ h.edges := by
  rw [merge_eq_foldl, mem_edges_foldl_addRow, mem_edges_iff (g := h)]
  simp only [OrderedMap.mem_entries_iff]
  rfl

theorem merge_comm (g h : Digraph α) : g.merge h = h.merge g := by
  refine ext_of_mem (fun a => ?keys) fun a b => ?edges
  case keys => rw [mem_keys_merge, mem_keys_merge, or_comm]
  case edges => rw [mem_edges_merge, mem_edges_merge, or_comm]

theorem merge_assoc (g h k : Digraph α) : (g.merge h).merge k = g.merge (h.merge k) := by
  refine ext_of_mem (fun a => ?keys) fun a b => ?edges
  case keys => simp only [mem_keys_merge, or_assoc]
  case edges => simp only [mem_edges_merge, or_assoc]

theorem merge_self (g : Digraph α) : g.merge g = g := by
  refine ext_of_mem (fun a => ?keys) fun a b => ?edges
  case keys => rw [mem_keys_merge, or_self]
  case edges => rw [mem_edges_merge, or_self]

omit [Std.LawfulEqOrd α] in
theorem merge_empty (g : Digraph α) : g.merge ∅ = g := rfl

theorem empty_merge (g : Digraph α) : Digraph.merge ∅ g = g := merge_comm ∅ g

end Digraph

/-- Additions one after another. -/
inductive Additions (α : Type) where
  | nothing
  | key (before : Additions α) (a : α)
  | edge (before : Additions α) (a b : α)
  /-- Further additions that are collected in a graph of their own, which is then merged in. -/
  | merged (before group : Additions α)

namespace Additions

variable {α : Type}

/-- The keys that are added for their own sake. -/
def keys : Additions α → List α
  | nothing => []
  | key before a => before.keys ++ [a]
  | edge before _ _ => before.keys
  | merged before group => before.keys ++ group.keys

/-- The edges that are added. -/
def edges : Additions α → List (α × α)
  | nothing => []
  | key before _ => before.edges
  | edge before a b => before.edges ++ [(a, b)]
  | merged before group => before.edges ++ group.edges

variable [Ord α] [Std.TransOrd α]

/-- The graph that the additions build from nothing. -/
def graph : Additions α → Digraph α
  | nothing => ∅
  | key before a => before.graph.addKey a
  | edge before a b => before.graph.addEdge a b
  | merged before group => before.graph.merge group.graph

variable [Std.LawfulEqOrd α] {s t : Additions α} {x y : α}

theorem mem_edges_graph (s : Additions α) : (x, y) ∈ s.graph.edges ↔ (x, y) ∈ s.edges := by
  induction s with
  | nothing => simp [graph, edges]
  | key before a ih => simp [graph, edges, Digraph.mem_edges_addKey, ih]
  | edge before a b ih => simp [graph, edges, Digraph.mem_edges_addEdge, ih]
  | merged before group ih ih' => simp [graph, edges, Digraph.mem_edges_merge, ih, ih']

theorem mem_keys_graph (s : Additions α) :
    x ∈ s.graph.keys ↔ x ∈ s.keys ∨ ∃ y, (x, y) ∈ s.edges := by
  induction s with
  | nothing => simp [graph, keys, edges]
  | key before a ih =>
    simp only [graph, keys, edges, Digraph.mem_keys_addKey, ih, List.mem_append,
      List.mem_singleton]
    exact or_right_comm
  | edge before a b ih =>
    simp [graph, keys, edges, Digraph.mem_keys_addEdge, ih, exists_or, or_assoc]
  | merged before group ih ih' =>
    simp only [graph, keys, edges, Digraph.mem_keys_merge, ih, ih', List.mem_append, exists_or]
    exact or_or_or_comm

theorem graph_eq_of_mem (hkeys : ∀ x, x ∈ s.keys ↔ x ∈ t.keys)
    (hedges : ∀ e, e ∈ s.edges ↔ e ∈ t.edges) : s.graph = t.graph := by
  refine Digraph.ext_of_mem (fun a => ?keys) fun a b => ?edges
  case keys => simp only [mem_keys_graph, hkeys, hedges]
  case edges => rw [mem_edges_graph, mem_edges_graph, hedges]

end Additions

namespace Digraph

variable {α : Type} [Ord α] [Std.TransOrd α] [Std.LawfulEqOrd α]

/-- The keys of a graph that is built by additions are the added ones and the sources of the added
edges, and its edges are the added ones. So the same additions in another order, grouping or number
build the same graph. Merging is commutative, associative and idempotent, the empty graph is its
identity, and it keeps all keys and edges. A graph is that of its successor lists, which are strictly
ascending. -/
theorem graphs_are_unions (s t : Additions α) (g h k : Digraph α) :
    ((∀ x, x ∈ s.graph.keys ↔ x ∈ s.keys ∨ ∃ y, (x, y) ∈ s.edges) ∧
      ∀ x y, (x, y) ∈ s.graph.edges ↔ (x, y) ∈ s.edges) ∧
    ((∀ x, x ∈ s.keys ↔ x ∈ t.keys) → (∀ e, e ∈ s.edges ↔ e ∈ t.edges) → s.graph = t.graph) ∧
    (g.merge h = h.merge g ∧ (g.merge h).merge k = g.merge (h.merge k) ∧ g.merge g = g ∧
      g.merge ∅ = g ∧ Digraph.merge ∅ g = g) ∧
    ((∀ x ∈ g.keys, x ∈ (g.merge h).keys) ∧ ∀ e ∈ g.edges, e ∈ (g.merge h).edges) ∧
    ofRows g.toRows = g ∧
      ∀ row ∈ g.toRows.entries, row.2.Pairwise fun a b => compare a b = .lt := by
  refine ⟨⟨fun x => s.mem_keys_graph, fun x y => s.mem_edges_graph⟩, Additions.graph_eq_of_mem,
    ⟨merge_comm g h, merge_assoc g h k, merge_self g, merge_empty g, empty_merge g⟩, ⟨?_, ?_⟩,
    ofRows_toRows g, ?_⟩
  · intro x hx
    exact mem_keys_merge.2 (.inl hx)
  · rintro ⟨x, y⟩ he
    exact mem_edges_merge.2 (.inl he)
  · intro row hrow
    obtain ⟨⟨a, successors⟩, -, rfl⟩ := List.mem_map.1 hrow
    exact successors.ascending

/-- A key without successors and two edges. -/
def oneByOne : Additions String :=
  ((Additions.nothing.key "util.leaf").edge "util.a" "util.b").edge "util.a" "util.c"

/-- The same in another order and partly twice, with a graph that is merged with itself. -/
def inGroups : Additions String :=
  let group := ((Additions.nothing.edge "util.a" "util.c").key "util.leaf").edge "util.a" "util.b"
  (Additions.nothing.edge "util.a" "util.c").merged (group.merged group)

theorem graphs_are_unions_inGroups :
    oneByOne.graph = inGroups.graph ∧ "util.leaf" ∈ inGroups.graph.keys ∧
      "util.b" ∉ inGroups.graph.keys ∧
      oneByOne.graph.merge inGroups.graph = inGroups.graph.merge oneByOne.graph := by
  obtain ⟨⟨hkeys, -⟩, hsame, ⟨hcomm, -⟩, -⟩ :=
    graphs_are_unions oneByOne inGroups oneByOne.graph inGroups.graph ∅
  have heq : oneByOne.graph = inGroups.graph := by
    apply hsame
    · intro x
      simp [oneByOne, inGroups, Additions.keys]
    · intro e
      simp [oneByOne, inGroups, Additions.edges]
      tauto
  refine ⟨heq, heq ▸ (hkeys _).2 ?_, heq ▸ fun hmem => ?_, hcomm⟩
  · simp [oneByOne, Additions.keys]
  · simpa [oneByOne, Additions.keys, Additions.edges] using (hkeys _).1 hmem

end Digraph

end CallAtlas
