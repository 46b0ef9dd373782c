import CallAtlas.Diagram.Layout
import CallAtlas.Proofs.Graph.ClosedPath
import CallAtlas.Proofs.Graph.Edges
import CallAtlas.Proofs.Ordered.Grouping
import CallAtlas.Proofs.Diagram.Reading
/-!
# Numbered nodes of layouts

The number of a node is its position among all nodes. A layout declares every node once with its
number, in the group of its module if there are groups, and it connects the numbers of the ends of
each edge.
-/

namespace CallAtlas

theorem mem_zip_tail_iff {α : Type} {x y : α} {l : List α} :
    (x, y) ∈ l.zip l.tail ↔ [x, y] <:+: l := by
  induction l with
  | nil => simp
  | cons a l ih =>
    rw [pair_infix_cons, ← ih]
    cases l with
    | nil => simp
    | cons b l => simp [eq_comm]

theorem mem_cycleEdges_iff {α : Type} [Ord α] [Std.TransOrd α] [Std.LawfulEqOrd α] {x y : α}
    {cs : List (List α)} : (x, y) ∈ cycleEdges cs ↔ ∃ c ∈ cs, [x, y] <:+: c := by
  rw [cycleEdges, Digraph.mem_edges_ofEdges, List.mem_flatMap]
  simp only [mem_zip_tail_iff]

namespace Diagram

theorem moduleGroups_eq (g : Digraph String) :
    moduleGroups g = OrderedMap.group moduleOf id g.nodes.toList := rfl

/-- The groups of the nodes by module hold every node. -/
theorem mem_moduleGroups {g : Digraph String} {a : String} :
    (∃ e ∈ (moduleGroups g).entries, a ∈ e.2) ↔ a ∈ g.nodes.toList := by
  constructor
  · rintro ⟨⟨module, members⟩, he, ha⟩
    have hget := OrderedMap.mem_entries_iff.1 he
    rw [moduleGroups_eq, OrderedMap.get?_group_eq_some] at hget
    obtain ⟨-, rfl⟩ := hget
    rw [List.map_id, List.mem_filter] at ha
    exact ha.1
  · intro ha
    have hmem : a ∈ (g.nodes.toList.filter fun b => moduleOf b = moduleOf a).map id := by
      rw [List.map_id, List.mem_filter]
      exact ⟨ha, by simp⟩
    refine ⟨(moduleOf a, _), OrderedMap.mem_entries_iff.2 ?_, hmem⟩
    rw [moduleGroups_eq, OrderedMap.get?_group_eq_some]
    exact ⟨List.ne_nil_of_mem hmem, rfl⟩

namespace Layout

variable {g : Digraph String} {highlighted : List (String × String)} {shown : String → String}

theorem mem_clusters_clustered {n : Nat} :
    (∃ e ∈ (clustered g highlighted).clusters.entries, n ∈ e.2) ↔
      ∃ a ∈ g.nodes.toList, g.nodes.toList.idxOf a = n := by
  constructor
  · rintro ⟨e, he, hn⟩
    obtain ⟨group, hgroup, rfl⟩ := List.mem_map.1 he
    obtain ⟨a, ha, hidx⟩ := List.mem_map.1 hn
    exact ⟨a, mem_moduleGroups.1 ⟨group, hgroup, ha⟩, hidx⟩
  · rintro ⟨a, ha, rfl⟩
    obtain ⟨group, hgroup, hmem⟩ := mem_moduleGroups.2 ha
    exact ⟨_, List.mem_map_of_mem hgroup, List.mem_map_of_mem hmem⟩

theorem node_mem_declare_iff {l : Layout} {members : List Nat} {n : Nat} {label : String} :
    .node n label ∈ l.declare shown members ↔ n ∈ members ∧ label = shown (l.label n) := by
  rw [declare, List.mem_map]
  constructor
  · rintro ⟨i, hi, heq⟩
    cases heq
    exact ⟨hi, rfl⟩
  · rintro ⟨hn, rfl⟩
    exact ⟨n, hn, rfl⟩

/-- A clustered layout declares the nodes of the graph. -/
theorem node_mem_clustered_iff {n : Nat} {label : String} :
    .node n label ∈ ((clustered g highlighted).clusters.entries.flatMap fun e =>
        (clustered g highlighted).declare shown e.2) ↔
      ∃ a, g.nodes.toList[n]? = some a ∧ label = shown a := by
  have hmembers : .node n label ∈ ((clustered g highlighted).clusters.entries.flatMap fun e =>
        (clustered g highlighted).declare shown e.2) ↔
      (∃ e ∈ (clustered g highlighted).clusters.entries, n ∈ e.2) ∧
        label = shown ((clustered g highlighted).label n) := by
    simp only [List.mem_flatMap, node_mem_declare_iff]
    constructor
    · rintro ⟨e, he, hn, hlabel⟩
      exact ⟨⟨e, he, hn⟩, hlabel⟩
    · rintro ⟨⟨e, he, hn⟩, hlabel⟩
      exact ⟨e, he, hn, hlabel⟩
  have hlabel : (clustered g highlighted).label n = (g.nodes.toList[n]?).getD "" :=
    List.getD_eq_getElem?_getD
  rw [hmembers, mem_clusters_clustered, hlabel]
  constructor
  · rintro ⟨⟨a, ha, hidx⟩, rfl⟩
    have hget := (getElem?_eq_some_iff_idxOf g.nodes.nodup_toList).2 ⟨ha, hidx⟩
    exact ⟨a, hget, by rw [hget]; rfl⟩
  · rintro ⟨a, hget, rfl⟩
    refine ⟨⟨a, (getElem?_eq_some_iff_idxOf g.nodes.nodup_toList).1 hget⟩, ?_⟩
    rw [hget]
    rfl

/-- A flat layout declares the nodes of the graph. -/
theorem node_mem_flat_iff {n : Nat} {label : String} :
    .node n label ∈ ((flat g).labels.zipIdx.map fun e => Statement.node e.2 (shown e.1)) ↔
      ∃ a, g.nodes.toList[n]? = some a ∧ label = shown a := by
  rw [List.mem_map]
  constructor
  · rintro ⟨⟨a, i⟩, hmem, heq⟩
    cases heq
    exact ⟨a, List.mk_mem_zipIdx_iff_getElem?.1 hmem, rfl⟩
  · rintro ⟨a, hget, rfl⟩
    exact ⟨(a, n), List.mk_mem_zipIdx_iff_getElem?.2 hget, rfl⟩

/-- The connections of a graph join the numbers of the ends of its edges, one after another. -/
theorem forall₂_connect (g : Digraph String) (highlighted : List (String × String)) :
    List.Forall₂ (fun e c => g.nodes.toList[c.source]? = some e.1 ∧
        g.nodes.toList[c.target]? = some e.2 ∧ (c.inCycle = true ↔ e ∈ highlighted))
      g.edges (connect g.nodes.toList highlighted g) := by
  rw [connect, List.forall₂_map_right_iff, List.forall₂_same]
  rintro ⟨a, b⟩ he
  obtain ⟨ha, hb⟩ := Digraph.mem_nodes_of_mem_edges he
  refine ⟨List.getElem?_idxOf ha, List.getElem?_idxOf hb, ?_⟩
  exact List.contains_iff_mem

end Layout

end Diagram

end CallAtlas
