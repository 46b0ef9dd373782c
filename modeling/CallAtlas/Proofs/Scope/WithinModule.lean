import CallAtlas.Proofs.Graph.Edges
import CallAtlas.Proofs.Scope.Schedule
/-!
# Scopes within a module

Every key of the call graph of a file is an identifier within the module that the file is walked as.
An identifier can lie within two modules only if one of them lies within the other.
-/

namespace CallAtlas

/-- The identifier begins with the module and a dot. -/
def Within (module id : String) : Prop := (module ++ ".").toList <+: id.toList

theorem within_iff {module id : String} :
    Within module id ↔ module.toList ++ ['.'] <+: id.toList := by
  rw [Within, String.toList_append]
  rfl

theorem within_joinDots (module : String) {segments : List String} (h : segments ≠ []) :
    Within module (joinDots (module :: segments)) := by
  cases segments with
  | nil => exact absurd rfl h
  | cons s rest =>
    rw [Within, joinDots, String.intercalate_cons_cons]
    exact ⟨(".".intercalate (s :: rest)).toList, String.toList_append.symm⟩

theorem dot_mem_of_within {module id : String} (h : Within module id) : '.' ∈ id.toList := by
  apply (within_iff.1 h).subset
  simp

theorem eq_or_within_of_within {m n id : String} (hm : Within m id) (hn : Within n id) :
    m = n ∨ Within m n ∨ Within n m := by
  simp only [within_iff] at hm hn ⊢
  rcases List.prefix_or_prefix_of_prefix hm hn with h | h
  · rcases List.prefix_concat_iff.1 h with heq | h
    · exact .inl (String.toList_inj.1 (List.append_cancel_right heq))
    · exact .inr (.inl h)
  · rcases List.prefix_concat_iff.1 h with heq | h
    · exact .inl (String.toList_inj.1 (List.append_cancel_right heq.symm))
    · exact .inr (.inr h)

namespace ScopeContext

/-- The context belongs to a module, and so do the scopes that it has recorded. -/
structure Local (module : String) (c : ScopeContext) : Prop where
  module_eq : c.module = module
  within_of_mem_keys : ∀ k ∈ c.callGraph.keys, Within module k

theorem within_of_currentScope {c : ScopeContext} {scope : String}
    (h : c.currentScope = some scope) : Within c.module scope := by
  unfold currentScope at h
  split at h
  · cases h
  · rename_i hinside
    cases h
    apply within_joinDots
    intro hnone
    exact hinside (List.isEmpty_iff.2 (List.append_eq_nil_iff.1 hnone).2)

theorem local_start (module : String) : Local module { module } where
  module_eq := rfl
  within_of_mem_keys _ hk := absurd hk List.not_mem_nil

end ScopeContext

namespace Outline

open ScopeContext (Local)

variable {o : Outline} {module : String} {c c' : ScopeContext}

theorem mem_keys_callGraphAfter_cases {n : Nat} {k : String}
    (h : k ∈ (o.callGraphAfter c n).keys) : k ∈ c.callGraph.keys ∨ Within c.module k := by
  unfold callGraphAfter at h
  split at h
  · rcases Digraph.mem_keys_addKey.1 h with h | rfl
    · exact .inl h
    · exact .inr (within_joinDots _ (by simp))
  · split at h
    · rename_i hscope _
      rcases Digraph.mem_keys_addEdge.1 h with h | rfl
      · exact .inl h
      · exact .inr (ScopeContext.within_of_currentScope hscope)
    · exact .inl h
  · exact .inl h

theorem local_visit {n : Nat} {leave : Option (List WalkStep)} (h : Local module c)
    (hvisit : o.visit n c = (c', leave)) : Local module c' := by
  rw [visit_eq] at hvisit
  cases hvisit
  refine ⟨h.module_eq, fun k hk => ?_⟩
  rcases mem_keys_callGraphAfter_cases hk with hk | hk
  · exact h.within_of_mem_keys k hk
  · rwa [h.module_eq] at hk

theorem local_walkSteps {maxDepth fuel : Nat} {pending : List WalkStep} (h : Local module c)
    (hwalk : o.walkSteps maxDepth fuel pending c = .ok c') : Local module c' := by
  fun_induction walkSteps o maxDepth fuel pending c with
  | case1 =>
    cases hwalk
    exact h
  | case2 =>
    cases hwalk
    exact h
  | case3 _ _ _ ih => exact ih ⟨h.module_eq, h.within_of_mem_keys⟩ hwalk
  | case4 _ _ _ ih => exact ih ⟨h.module_eq, h.within_of_mem_keys⟩ hwalk
  | case5 => cases hwalk
  | case6 _ _ _ _ _ _ _ hvisit ih => exact ih (local_visit h hvisit) hwalk
  | case7 _ _ _ _ _ _ _ _ hvisit _ ih => exact ih (local_visit h hvisit) hwalk

/-- A walk gives the result of its module, whose keys all lie within that module. -/
theorem within_of_walk {maxDepth : Nat} {r : WalkResult} (h : o.walk maxDepth module = .ok r) :
    r.module = module ∧ ∀ k ∈ r.callGraph.keys, Within module k := by
  unfold walk at h
  cases hsteps : o.walkSteps maxDepth (2 * o.size) [.enter 0 0] { module } with
  | error e =>
    rw [hsteps] at h
    cases h
  | ok c =>
    rw [hsteps] at h
    cases h
    have hlocal := local_walkSteps (ScopeContext.local_start module) hsteps
    exact ⟨hlocal.module_eq, hlocal.within_of_mem_keys⟩

end Outline

end CallAtlas
