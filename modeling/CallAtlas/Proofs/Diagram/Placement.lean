import CallAtlas.Proofs.Diagram.Numbering
/-!
# Labels, clusters and connections of layouts

The labels of a layout are the nodes of the graph in order, its clusters hold every number once and
under the module of its label, and its connections are the edges of the graph in order. The numbers
come from a table of the labels, in which no look-up fails.
-/

namespace CallAtlas.Diagram

namespace Layout

variable {g : Digraph String} {highlighted : List (String × String)}

/-! ### Numbers by a table -/

def numbering (labels : List String) : OrderedMap String Nat := .ofList labels.zipIdx

/-- The connections of the edges of a graph by a table of numbers, which has to hold both ends of
every edge. -/
def connect? (ids : OrderedMap String Nat) (highlighted : List (String × String))
    (g : Digraph String) : Option (List Connection) :=
  g.edges.mapM fun e => do
    return ⟨← ids.get? e.1, ← ids.get? e.2, highlighted.contains e⟩

/-- The clusters of a graph by a table of numbers, which has to hold every node. -/
def clusters? (ids : OrderedMap String Nat) (g : Digraph String) :
    Option (OrderedMap String (List Nat)) := do
  let clusters ← (moduleGroups g).entries.mapM fun e => do return (e.1, ← e.2.mapM ids.get?)
  return .ofList clusters

/-- The layout of a call graph, unless a node has no number. -/
def clustered? (g : Digraph String) (highlighted : List (String × String)) : Option Layout := do
  let labels := g.nodes.toList
  let ids := numbering labels
  return ⟨labels, ← clusters? ids g, ← connect? ids highlighted g⟩

/-- The layout of an import graph, unless a node has no number. -/
def flat? (g : Digraph String) : Option Layout := do
  let labels := g.nodes.toList
  return ⟨labels, ∅, ← connect? (numbering labels) [] g⟩

theorem get?_numbering {labels : List String} {a : String} (hnodup : labels.Nodup)
    (ha : a ∈ labels) : (numbering labels).get? a = some (labels.idxOf a) := by
  have hkeys : (labels.zipIdx.map (·.1)).Nodup := by rwa [List.zipIdx_map_fst]
  rw [numbering, OrderedMap.get?_ofList_eq_some_iff hkeys]
  exact List.mk_mem_zipIdx_iff_getElem?.2 (List.getElem?_idxOf ha)

theorem get?_numbering_nodes {a : String} (ha : a ∈ g.nodes.toList) :
    (numbering g.nodes.toList).get? a = some (g.nodes.toList.idxOf a) :=
  get?_numbering g.nodes.nodup_toList ha

theorem connect?_eq (g : Digraph String) (highlighted : List (String × String)) :
    connect? (numbering g.nodes.toList) highlighted g =
      some (connect g.nodes.toList highlighted g) := by
  refine mapM_eq_some_map ?_
  intro e he
  obtain ⟨ha, hb⟩ := Digraph.mem_nodes_of_mem_edges he
  rw [get?_numbering_nodes ha, get?_numbering_nodes hb]
  rfl

theorem clusters?_eq (g : Digraph String) : clusters? (numbering g.nodes.toList) g =
    some ((moduleGroups g).mapValues fun members => members.map g.nodes.toList.idxOf) := by
  have hentries : ((moduleGroups g).entries.mapM fun e => do
      return (e.1, ← e.2.mapM (numbering g.nodes.toList).get?)) =
      some ((moduleGroups g).mapValues fun members => members.map g.nodes.toList.idxOf).entries := by
    refine mapM_eq_some_map fun e he => ?_
    have hmembers : e.2.mapM (numbering g.nodes.toList).get? =
        some (e.2.map g.nodes.toList.idxOf) :=
      mapM_eq_some_map fun a ha => get?_numbering_nodes (mem_moduleGroups.1 ⟨e, he, ha⟩)
    rw [hmembers]
    rfl
  rw [clusters?, hentries]
  exact congrArg some (OrderedMap.ofList_entries _)

theorem clustered?_eq (g : Digraph String) (highlighted : List (String × String)) :
    clustered? g highlighted = some (clustered g highlighted) := by
  rw [clustered?, clusters?_eq, connect?_eq]
  rfl

theorem flat?_eq (g : Digraph String) : flat? g = some (flat g) := by
  rw [flat?, connect?_eq]
  rfl

/-! ### What stands where -/

def edges (l : Layout) : List (String × String) :=
  l.connections.map fun c => (l.label c.source, l.label c.target)

/-- The labels are the nodes of a graph in order, and the connections are its edges in order. -/
structure Depicts (l : Layout) (g : Digraph String) : Prop where
  ascending_labels : l.labels.Pairwise fun a b => compare a b = .lt
  mem_labels : ∀ a, a ∈ l.labels ↔ a ∈ g.keys ∨ ∃ b, a ∈ g.successors b
  numbered : ∀ c ∈ l.connections, c.source < l.labels.length ∧ c.target < l.labels.length
  ascending_edges : l.edges.Pairwise fun e f =>
    compare e.1 f.1 = .lt ∨ e.1 = f.1 ∧ compare e.2 f.2 = .lt
  mem_edges : ∀ a b, (a, b) ∈ l.edges ↔ b ∈ g.successors a

/-- The clusters hold every number once, under the module of its label. -/
structure Grouped (l : Layout) : Prop where
  existsUnique : ∀ i < l.labels.length, ∃! cluster, cluster ∈ l.clusters.entries ∧ i ∈ cluster.2
  numbered : ∀ cluster ∈ l.clusters.entries, ∀ i ∈ cluster.2, i < l.labels.length
  ne_nil : ∀ cluster ∈ l.clusters.entries, cluster.2 ≠ []
  ascending : ∀ cluster ∈ l.clusters.entries, cluster.2.Pairwise (· < ·)
  moduleOf_label : ∀ cluster ∈ l.clusters.entries, ∀ i ∈ cluster.2,
    moduleOf (l.label i) = cluster.1

theorem label_eq {l : Layout} {i : Nat} {a : String} (h : l.labels[i]? = some a) :
    l.label i = a := by
  rw [label, List.getD_eq_getElem?_getD, h]
  rfl

theorem edges_clustered (g : Digraph String) (highlighted : List (String × String)) :
    (clustered g highlighted).edges = g.edges := by
  show (g.edges.map _).map _ = g.edges
  rw [List.map_map]
  refine (List.map_congr_left fun e he => ?_).trans (List.map_id _)
  obtain ⟨ha, hb⟩ := Digraph.mem_nodes_of_mem_edges he
  exact Prod.ext (label_eq (List.getElem?_idxOf ha)) (label_eq (List.getElem?_idxOf hb))

theorem mem_clusters_iff {module : String} {ids : List Nat} :
    (module, ids) ∈ (clustered g highlighted).clusters.entries ↔
      ids ≠ [] ∧ ids = (g.nodes.toList.filter fun a => moduleOf a = module).map
        g.nodes.toList.idxOf := by
  rw [OrderedMap.mem_entries_iff]
  show ((moduleGroups g).mapValues _).get? module = some ids ↔ _
  rw [OrderedMap.get?_mapValues, Option.map_eq_some_iff]
  simp only [moduleGroups_eq, OrderedMap.get?_group_eq_some, List.map_id]
  constructor
  · rintro ⟨members, ⟨hne, rfl⟩, rfl⟩
    exact ⟨by simpa using hne, rfl⟩
  · rintro ⟨hne, rfl⟩
    exact ⟨_, ⟨by simpa using hne, rfl⟩, rfl⟩

theorem mem_cluster_iff {module : String} {ids : List Nat} {i : Nat}
    (h : (module, ids) ∈ (clustered g highlighted).clusters.entries) :
    i ∈ ids ↔ ∃ a, g.nodes.toList[i]? = some a ∧ moduleOf a = module := by
  rw [(mem_clusters_iff.1 h).2, List.mem_map]
  simp only [List.mem_filter, decide_eq_true_eq,
    getElem?_eq_some_iff_idxOf g.nodes.nodup_toList]
  constructor
  · rintro ⟨a, ⟨ha, hmodule⟩, hidx⟩
    exact ⟨a, ⟨ha, hidx⟩, hmodule⟩
  · rintro ⟨a, ⟨ha, hidx⟩, hmodule⟩
    exact ⟨a, ⟨ha, hmodule⟩, hidx⟩

theorem depicts_clustered (g : Digraph String) (highlighted : List (String × String)) :
    (clustered g highlighted).Depicts g where
  ascending_labels := g.nodes.ascending
  mem_labels a := by
    show a ∈ g.nodes ↔ _
    simp only [Digraph.mem_nodes, Digraph.mem_edges_iff_successors]
  numbered c hc := by
    obtain ⟨e, he, rfl⟩ := List.mem_map.1 hc
    obtain ⟨ha, hb⟩ := Digraph.mem_nodes_of_mem_edges he
    exact ⟨List.idxOf_lt_length_iff.2 ha, List.idxOf_lt_length_iff.2 hb⟩
  ascending_edges := by
    rw [edges_clustered]
    exact g.pairwise_edges
  mem_edges a b := by rw [edges_clustered, Digraph.mem_edges_iff_successors]

theorem grouped_clustered (g : Digraph String) (highlighted : List (String × String)) :
    (clustered g highlighted).Grouped where
  existsUnique i hi := by
    obtain ⟨a, ha⟩ : ∃ a, g.nodes.toList[i]? = some a := ⟨_, List.getElem?_eq_getElem hi⟩
    obtain ⟨hmem, hidx⟩ := (getElem?_eq_some_iff_idxOf g.nodes.nodup_toList).1 ha
    have hcluster : i ∈ (g.nodes.toList.filter fun b => moduleOf b = moduleOf a).map
        g.nodes.toList.idxOf :=
      List.mem_map.2 ⟨a, List.mem_filter.2 ⟨hmem, by simp⟩, hidx⟩
    refine ⟨(moduleOf a, _), ⟨mem_clusters_iff.2 ⟨List.ne_nil_of_mem hcluster, rfl⟩, hcluster⟩, ?_⟩
    -- any other cluster with this number has a member of the same module, hence the same members
    rintro ⟨module, ids⟩ ⟨hids, hi'⟩
    obtain ⟨b, hb, rfl⟩ := (mem_cluster_iff hids).1 hi'
    obtain rfl := Option.some.inj (ha.symm.trans hb)
    rw [(mem_clusters_iff.1 hids).2]
  numbered cluster hcluster i hi := by
    obtain ⟨a, ha, -⟩ := (mem_cluster_iff hcluster).1 hi
    exact (List.getElem?_eq_some_iff.1 ha).1
  ne_nil cluster hcluster := (mem_clusters_iff.1 hcluster).1
  ascending cluster hcluster := by
    rw [(mem_clusters_iff.1 hcluster).2]
    exact pairwise_map_idxOf g.nodes.nodup_toList List.filter_sublist
  moduleOf_label cluster hcluster i hi := by
    obtain ⟨a, ha, hmodule⟩ := (mem_cluster_iff hcluster).1 hi
    rw [label_eq ha, hmodule]

/-- The layout of a call graph never misses a number, shows the nodes and the edges of the graph in
order with every number in the cluster of its module, and flags the highlighted edges alone. The flat
layout has the same labels and edges, no clusters and no flags. -/
theorem layout_arranges (g : Digraph String) (highlighted : List (String × String)) :
    let l := clustered g highlighted
    (clustered? g highlighted = some l ∧ l.Depicts g ∧ l.Grouped ∧
      ∀ c ∈ l.connections, c.inCycle = true ↔ (l.label c.source, l.label c.target) ∈ highlighted) ∧
      flat? g = some (flat g) ∧ (flat g).labels = l.labels ∧ (flat g).clusters = ∅ ∧
      (flat g).connections = l.connections.map fun c => { c with inCycle := false } := by
  intro l
  refine ⟨⟨clustered?_eq g highlighted, depicts_clustered g highlighted,
    grouped_clustered g highlighted, ?flagged⟩, flat?_eq g, rfl, rfl, ?unflagged⟩
  case flagged =>
    intro c hc
    obtain ⟨⟨a, b⟩, he, rfl⟩ := List.mem_map.1 hc
    obtain ⟨ha, hb⟩ := Digraph.mem_nodes_of_mem_edges he
    have hsource : l.label (g.nodes.toList.idxOf a) = a := label_eq (List.getElem?_idxOf ha)
    have htarget : l.label (g.nodes.toList.idxOf b) = b := label_eq (List.getElem?_idxOf hb)
    rw [hsource, htarget]
    exact List.contains_iff_mem
  case unflagged =>
    show connect g.nodes.toList [] g = (connect g.nodes.toList highlighted g).map _
    rw [connect, connect, List.map_map]
    rfl

end Layout

end CallAtlas.Diagram
