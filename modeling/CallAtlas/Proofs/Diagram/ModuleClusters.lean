import CallAtlas.Proofs.Diagram.Placement
import CallAtlas.Proofs.Lists
import CallAtlas.Proofs.Scope.WithinModule
import CallAtlas.Path
/-!
# The clusters of scopes

A diagram files an identifier under everything before its first dot, and the scopes of a file begin
with the name of its module and a dot. Hence all scopes of a file stand in one cluster, which bears
the name of the module up to its first dot. That is the module itself unless its name holds a dot, as
it does where a file has more than one dot in its name.
-/

namespace CallAtlas.Diagram

theorem moduleOf_of_within {module id : String} (h : Within module id) :
    moduleOf id = moduleOf module := by
  obtain ⟨rest, hrest⟩ := within_iff.1 h
  rw [List.append_assoc, List.singleton_append] at hrest
  rw [moduleOf, ← hrest, takeWhile_append_cons_of_neg (by decide)]
  rfl

theorem moduleOf_eq_self_iff {module : String} : moduleOf module = module ↔ '.' ∉ module.toList := by
  rw [← String.toList_inj, moduleOf, String.toList_ofList, List.takeWhile_eq_self_iff]
  constructor
  · intro h hdot
    have hne := h '.' hdot
    simp at hne
  · intro h c hc
    rw [bne_iff_ne]
    rintro rfl
    exact h hc

namespace Layout

variable {g : Digraph String} {highlighted : List (String × String)} {a : String}

theorem exists_cluster_of_mem_nodes (ha : a ∈ g.nodes) :
    ∃ ids, (moduleOf a, ids) ∈ (clustered g highlighted).clusters.entries ∧
      g.nodes.toList.idxOf a ∈ ids := by
  have hmem : g.nodes.toList.idxOf a ∈ (g.nodes.toList.filter fun b => moduleOf b = moduleOf a).map
      g.nodes.toList.idxOf :=
    List.mem_map_of_mem (List.mem_filter.2 ⟨ha, by simp⟩)
  exact ⟨_, mem_clusters_iff.2 ⟨List.ne_nil_of_mem hmem, rfl⟩, hmem⟩

theorem eq_moduleOf_of_idxOf_mem {module : String} {ids : List Nat} (ha : a ∈ g.nodes)
    (h : (module, ids) ∈ (clustered g highlighted).clusters.entries)
    (hmem : g.nodes.toList.idxOf a ∈ ids) : module = moduleOf a := by
  obtain ⟨b, hb, rfl⟩ := (mem_cluster_iff h).1 hmem
  rw [Option.some.inj (hb.symm.trans (List.getElem?_idxOf ha))]

end Layout

/-- The scopes of a file all stand in the cluster of the name of its module up to the first dot, and
in no other one. This is the name of the module exactly if no dot is in it. -/
theorem scopes_in_one_cluster {o : Outline} {p : Path} {maxDepth : Nat} {r : WalkResult}
    (h : o.walk maxDepth p.moduleName = .ok r) {k : String} (hk : k ∈ r.callGraph.keys) :
    moduleOf k = moduleOf p.moduleName ∧
      (moduleOf k = p.moduleName ↔ '.' ∉ p.moduleName.toList) ∧
      ∀ (g : Digraph String) (highlighted : List (String × String)), k ∈ g.nodes →
        (∃ ids, (moduleOf p.moduleName, ids) ∈ (Layout.clustered g highlighted).clusters.entries ∧
          g.nodes.toList.idxOf k ∈ ids) ∧
        ∀ module ids, (module, ids) ∈ (Layout.clustered g highlighted).clusters.entries →
          g.nodes.toList.idxOf k ∈ ids → module = moduleOf p.moduleName := by
  have hmodule : moduleOf k = moduleOf p.moduleName :=
    moduleOf_of_within ((Outline.within_of_walk h).2 k hk)
  refine ⟨hmodule, ?name, fun g highlighted hnode => ⟨?cluster, ?other⟩⟩
  case name => rw [hmodule, moduleOf_eq_self_iff]
  case cluster =>
    rw [← hmodule]
    exact Layout.exists_cluster_of_mem_nodes hnode
  case other =>
    intro module ids hcluster hmem
    rw [← hmodule]
    exact Layout.eq_moduleOf_of_idxOf_mem hnode hcluster hmem

/-- A function in a class. -/
def oneMethod : Outline := (Outline.root.push 0 (.classDef "Service")).push 1 (.functionDef "run")

theorem exists_walk_oneMethod :
    ∃ r, oneMethod.walk 2 (⟨"lib/core.v2.py"⟩ : Path).moduleName = .ok r ∧
      r.callGraph.keys = ["core.v2.Service.run"] :=
  Outline.exists_walk_of_map (f := fun r => r.callGraph.keys) (by decide +kernel)

/-- The scopes of a file with a dotted stem do not stand in the cluster of its module. -/
theorem oneMethod_not_in_cluster :
    ∃ r, oneMethod.Built ∧ oneMethod.walk 2 (⟨"lib/core.v2.py"⟩ : Path).moduleName = .ok r ∧
      "core.v2.Service.run" ∈ r.callGraph.keys ∧
      (⟨"lib/core.v2.py"⟩ : Path).moduleName = "core.v2" ∧
      moduleOf "core.v2.Service.run" ≠ "core.v2" := by
  obtain ⟨r, hwalk, hkeys⟩ := exists_walk_oneMethod
  exact ⟨r, .push (.push .root (by decide)) (by decide), hwalk, by simp [hkeys], by decide,
    by decide⟩

theorem scopes_in_one_cluster_oneMethod :
    ∃ r, oneMethod.walk 2 (⟨"lib/core.v2.py"⟩ : Path).moduleName = .ok r ∧
      "core.v2.Service.run" ∈ r.callGraph.keys ∧
      moduleOf "core.v2.Service.run" = "core" ∧
      ∃ ids, ("core", ids) ∈ (Layout.clustered r.callGraph []).clusters.entries ∧
        r.callGraph.nodes.toList.idxOf "core.v2.Service.run" ∈ ids := by
  obtain ⟨r, hwalk, hkeys⟩ := exists_walk_oneMethod
  have hk : "core.v2.Service.run" ∈ r.callGraph.keys := by simp [hkeys]
  obtain ⟨hmodule, -, hclusters⟩ := scopes_in_one_cluster hwalk hk
  have hcore : moduleOf (⟨"lib/core.v2.py"⟩ : Path).moduleName = "core" := by decide
  rw [hcore] at hmodule hclusters
  exact ⟨r, hwalk, hk, hmodule, (hclusters r.callGraph [] (Digraph.mem_nodes.2 (.inl hk))).1⟩

end CallAtlas.Diagram
