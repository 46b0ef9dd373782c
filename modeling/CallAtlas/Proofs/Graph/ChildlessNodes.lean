import CallAtlas.Proofs.Graph.Edges
import CallAtlas.Proofs.Graph.Search
import CallAtlas.Proofs.Ordered.Extensionality
/-!
# The cycles depend on the edges alone

A search that enters a node without successors leaves it at once, and then stands where it would
stand had it skipped the node. So the searches of two graphs with the same edges stay `Alike`: they
have the same path and have found the same cycles, and they have visited the same nodes among those
with successors. They may take a different number of steps, since one of them may enter a childless
node that the other one has met as a root.
-/

namespace CallAtlas

variable {α : Type} [Ord α] {g h : Adjacency α}

namespace Cycle.Search

variable {s t u : Search α}

/-- Two searches that differ at most in childless nodes that they have visited. -/
structure Alike (g : Adjacency α) (s t : Search α) : Prop where
  path : s.path = t.path
  found : s.found = t.found
  visited : ∀ a, g.next a ≠ [] → (a ∈ s.visited ↔ a ∈ t.visited)

namespace Alike

theorem refl (g : Adjacency α) (s : Search α) : Alike g s s :=
  ⟨rfl, rfl, fun _ _ => .rfl⟩

theorem symm (hst : Alike g s t) : Alike g t s :=
  ⟨hst.path.symm, hst.found.symm, fun a ha => (hst.visited a ha).symm⟩

theorem trans (hst : Alike g s t) (htu : Alike g t u) : Alike g s u where
  path := hst.path.trans htu.path
  found := hst.found.trans htu.found
  visited := fun a ha => (hst.visited a ha).trans (htu.visited a ha)

theorem congr (hst : Alike h s t) (hnil : ∀ a, g.next a = [] ↔ h.next a = []) : Alike g s t :=
  ⟨hst.path, hst.found, fun a ha => hst.visited a fun hnone => ha ((hnil a).2 hnone)⟩

end Alike

theorem next_eq_nil_iff (hedges : ∀ a b, b ∈ g.next a ↔ b ∈ h.next a) (a : α) :
    g.next a = [] ↔ h.next a = [] := by
  rw [List.eq_nil_iff_forall_not_mem, List.eq_nil_iff_forall_not_mem]
  exact forall_congr' fun b => not_congr (hedges a b)

variable [Std.TransOrd α]

theorem run_of_path_nil (g : Adjacency α) (fuel : Nat) (hpath : s.path = []) :
    run g fuel s = s := by
  cases fuel with
  | zero => rfl
  | succ fuel => simp only [run, hpath]

theorem run_succ (fuel : Nat) (hpath : s.path ≠ []) :
    run g (fuel + 1) s = run g fuel (s.step g) := by
  cases hp : s.path with
  | nil => exact absurd hp hpath
  | cons f below => simp only [run, hp]

theorem step_close {visited : OrderedSet α} {onPath : OrderedMap α Nat} {a b : α}
    {pending : List α} {below : List (Frame α)} {found : List (List α)} {start : Nat}
    (hpos : onPath.get? b = some start) :
    step g ⟨visited, onPath, ⟨a, b :: pending⟩ :: below, found⟩ =
      ⟨visited, onPath, ⟨a, pending⟩ :: below,
        ((a :: below.map (·.node)).reverse.drop start ++ [b]) :: found⟩ := by
  simp only [step, hpos]
  rfl

variable [Std.LawfulEqOrd α]

theorem step_skip {visited : OrderedSet α} {onPath : OrderedMap α Nat} {a b : α}
    {pending : List α} {below : List (Frame α)} {found : List (List α)}
    (hpos : onPath.get? b = none) (hb : b ∈ visited) :
    step g ⟨visited, onPath, ⟨a, b :: pending⟩ :: below, found⟩ =
      ⟨visited, onPath, ⟨a, pending⟩ :: below, found⟩ := by
  simp only [step, hpos]
  rw [if_pos (OrderedSet.contains_iff.2 hb)]

theorem step_descend {visited : OrderedSet α} {onPath : OrderedMap α Nat} {a b : α}
    {pending : List α} {below : List (Frame α)} {found : List (List α)}
    (hpos : onPath.get? b = none) (hb : b ∉ visited) :
    step g ⟨visited, onPath, ⟨a, b :: pending⟩ :: below, found⟩ =
      enter g ⟨visited, onPath, ⟨a, pending⟩ :: below, found⟩ b := by
  simp only [step, hpos]
  rw [if_neg fun hmem => hb (OrderedSet.contains_iff.1 hmem)]

theorem mem_visited_enter {a b : α} : a ∈ (s.enter g b).visited ↔ a = b ∨ a ∈ s.visited :=
  OrderedSet.mem_insert

/-- A childless node that is entered is left by the next step. -/
theorem alike_step_enter {b : α} (hb : g.next b = []) : Alike g ((s.enter g b).step g) s := by
  have hnone : orderedNext g b = [] := by
    rw [orderedNext, hb]
    rfl
  have hstep : (s.enter g b).step g =
      { s with visited := s.visited.insert b, onPath := (s.onPath.insert b s.path.length).erase b } := by
    simp only [step, enter, hnone]
  rw [hstep]
  refine ⟨rfl, rfl, ?_⟩
  intro a ha
  have hne : a ≠ b := by
    rintro rfl
    exact ha hb
  show a ∈ s.visited.insert b ↔ a ∈ s.visited
  rw [OrderedSet.mem_insert, or_iff_right hne]

/-- A search that is not over goes on with its next step, for which its fuel suffices. -/
theorem Reachable.run_step {n : Nat} (hs : Reachable g s) (hpath : s.path ≠ [])
    (hn : remaining g s ≤ n) :
    ∃ k, k < n ∧ run g n s = run g k (s.step g) ∧ Reachable g (s.step g) ∧
      remaining g (s.step g) ≤ k := by
  have ht : Transition g s (s.step g) := transition_step hpath
  have hless := remaining_transition hs.inv ht
  obtain ⟨k, rfl⟩ : ∃ k, n = k + 1 := ⟨n - 1, by omega⟩
  exact ⟨k, Nat.lt_succ_self k, run_succ k hpath, hs.step ht, by omega⟩

/-- A search from a childless root changes nothing else. -/
theorem alike_fromRoot_childless {a : α} (ha : a ∈ g.roots) (hnil : g.next a = [])
    (hs : Reachable g s) (hpath : s.path = []) : Alike g (fromRoot g (stepBound g) s a) s := by
  unfold fromRoot
  split
  · exact .refl g s
  · rename_i hmem
    have hfresh : a ∉ s.visited := fun hv => hmem (OrderedSet.contains_iff.2 hv)
    have halike := alike_step_enter (s := s) hnil
    obtain ⟨k, -, hrun, -, -⟩ := (hs.root hpath ha hfresh).run_step (List.cons_ne_nil _ _)
      (remaining_enter_root_le hpath ha hfresh)
    rw [hrun, run_of_path_nil g k (halike.path.trans hpath)]
    exact halike

section SameEdges
variable (hedges : ∀ a b, b ∈ g.next a ↔ b ∈ h.next a)
include hedges

theorem orderedNext_congr (a : α) : orderedNext g a = orderedNext h a := by
  have hset : OrderedSet.ofList (g.next a) = OrderedSet.ofList (h.next a) := by
    apply OrderedSet.ext_of_mem
    intro b
    rw [OrderedSet.mem_ofList, OrderedSet.mem_ofList]
    exact hedges a b
  exact congrArg OrderedSet.toList hset

theorem Alike.enter (hst : Alike g s t) (b : α) : Alike g (s.enter g b) (t.enter h b) where
  path := by simp only [Search.enter, orderedNext_congr hedges b, hst.path]
  found := hst.found
  visited := by
    intro a ha
    rw [mem_visited_enter, mem_visited_enter, hst.visited a ha]

/-- The next steps of alike searches lead to alike ones, where one search may need two steps to
enter and leave a childless node that the other one skips. -/
theorem Alike.step (hst : Alike g s t) (hs : Inv g s) (ht : Inv h t) (hpath : s.path ≠ []) :
    Alike g (s.step g) (t.step h) ∨
      (t.step h).path ≠ [] ∧ Alike g (s.step g) ((t.step h).step h) ∨
      (s.step g).path ≠ [] ∧ Alike g ((s.step g).step g) (t.step h) := by
  obtain ⟨visited, onPath, path, found⟩ := s
  obtain ⟨visited', onPath', path', found'⟩ := t
  obtain rfl : path = path' := hst.path
  obtain rfl : found = found' := hst.found
  match path, hpath with
  | ⟨a, []⟩ :: below, _ => exact .inl ⟨rfl, rfl, hst.visited⟩
  | ⟨a, b :: pending⟩ :: below, _ =>
    -- both maps of positions are the inverse of the same path
    have hpos' : onPath'.get? b = onPath.get? b := by
      apply Option.ext
      intro i
      exact (ht.position b i).trans (hs.position b i).symm
    have hrest : Alike g ⟨visited, onPath, ⟨a, pending⟩ :: below, found⟩
        ⟨visited', onPath', ⟨a, pending⟩ :: below, found⟩ := ⟨rfl, rfl, hst.visited⟩
    cases hpos : onPath.get? b with
    | some start =>
      rw [hpos] at hpos'
      rw [step_close hpos, step_close hpos']
      exact .inl ⟨rfl, rfl, hst.visited⟩
    | none =>
      rw [hpos] at hpos'
      -- where the searches differ in having visited `b`, it is childless
      by_cases hleft : b ∈ visited
      · by_cases hright : b ∈ visited'
        · rw [step_skip hpos hleft, step_skip hpos' hright]
          exact .inl hrest
        · have hb : h.next b = [] := by
            by_contra hne
            exact hright ((hst.visited b (mt (next_eq_nil_iff hedges b).1 hne)).1 hleft)
          rw [step_skip hpos hleft, step_descend hpos' hright]
          refine .inr (.inl ⟨List.cons_ne_nil _ _, hrest.trans ?_⟩)
          exact (alike_step_enter hb).symm.congr (next_eq_nil_iff hedges)
      · by_cases hright : b ∈ visited'
        · have hb : g.next b = [] := by
            by_contra hne
            exact hleft ((hst.visited b hne).2 hright)
          rw [step_descend hpos hleft, step_skip hpos' hright]
          exact .inr (.inr ⟨List.cons_ne_nil _ _, (alike_step_enter hb).trans hrest⟩)
        · rw [step_descend hpos hleft, step_descend hpos' hright]
          exact .inl (hrest.enter hedges b)

theorem Alike.run {n m : Nat} (hst : Alike g s t) (hs : Reachable g s) (ht : Reachable h t)
    (hn : remaining g s ≤ n) (hm : remaining h t ≤ m) : Alike g (run g n s) (run h m t) := by
  -- by induction on the fuel of both searches, since one of them may be a step behind
  induction hk : n + m using Nat.strong_induction_on generalizing n m s t with
  | _ k ih =>
    by_cases hpath : s.path = []
    · rw [run_of_path_nil g n hpath, run_of_path_nil h m (hst.path ▸ hpath)]
      exact hst
    · have hpath' : t.path ≠ [] := hst.path ▸ hpath
      obtain ⟨n', hn', hrun, hs', hrem⟩ := hs.run_step hpath hn
      obtain ⟨m', hm', hrun', ht', hrem'⟩ := ht.run_step hpath' hm
      rw [hrun, hrun']
      rcases hst.step hedges hs.inv ht.inv hpath with hnext | ⟨hmore, hnext⟩ | ⟨hmore, hnext⟩
      · exact ih (n' + m') (by omega) hnext hs' ht' hrem hrem' rfl
      · obtain ⟨m'', hm'', hrun'', ht'', hrem''⟩ := ht'.run_step hmore hrem'
        rw [hrun'']
        exact ih (n' + m'') (by omega) hnext hs' ht'' hrem hrem'' rfl
      · obtain ⟨n'', hn'', hrun'', hs'', hrem''⟩ := hs'.run_step hmore hrem
        rw [hrun'']
        exact ih (n'' + m') (by omega) hnext hs'' ht' hrem'' hrem' rfl

theorem alike_fromRoot {a : α} (hst : Alike g s t) (hs : Reachable g s) (ht : Reachable h t)
    (hpath : s.path = []) (hnil : g.next a ≠ []) :
    Alike g (fromRoot g (stepBound g) s a) (fromRoot h (stepBound h) t a) := by
  have hroot : a ∈ g.roots := by
    obtain ⟨b, hb⟩ := List.exists_mem_of_ne_nil _ hnil
    exact mem_roots_of_mem_next hb
  have hroot' : a ∈ h.roots := by
    obtain ⟨b, hb⟩ := List.exists_mem_of_ne_nil _ (mt (next_eq_nil_iff hedges a).2 hnil)
    exact mem_roots_of_mem_next hb
  have hpath' : t.path = [] := hst.path ▸ hpath
  have hiff : a ∈ s.visited ↔ a ∈ t.visited := hst.visited a hnil
  unfold fromRoot
  by_cases ha : a ∈ s.visited
  · rw [if_pos (OrderedSet.contains_iff.2 ha), if_pos (OrderedSet.contains_iff.2 (hiff.1 ha))]
    exact hst
  · have ha' : a ∉ t.visited := fun hmem => ha (hiff.2 hmem)
    rw [if_neg fun hmem => ha (OrderedSet.contains_iff.1 hmem),
      if_neg fun hmem => ha' (OrderedSet.contains_iff.1 hmem)]
    exact (hst.enter hedges a).run hedges (hs.root hpath hroot ha) (ht.root hpath' hroot' ha')
      (remaining_enter_root_le hpath hroot ha) (remaining_enter_root_le hpath' hroot' ha')

end SameEdges

/-- The roots with successors, in order. -/
def properRoots (g : Adjacency α) : List α :=
  (OrderedSet.ofList g.roots).toList.filter fun a => !(g.next a).isEmpty

theorem mem_properRoots {a : α} : a ∈ properRoots g ↔ ∃ b, b ∈ g.next a := by
  have hmem : a ∈ properRoots g ↔ a ∈ g.roots ∧ g.next a ≠ [] := by
    simp [properRoots, OrderedSet.mem_toList]
  rw [hmem]
  constructor
  · rintro ⟨-, hne⟩
    exact List.exists_mem_of_ne_nil _ hne
  · rintro ⟨b, hb⟩
    exact ⟨mem_roots_of_mem_next hb, List.ne_nil_of_mem hb⟩

theorem properRoots_congr (hedges : ∀ a b, b ∈ g.next a ↔ b ∈ h.next a) :
    properRoots g = properRoots h := by
  apply eq_of_ascending id ((OrderedSet.ofList g.roots).ascending.filter _)
    ((OrderedSet.ofList h.roots).ascending.filter _)
  intro a
  have hiff : (∃ b, b ∈ g.next a) ↔ ∃ b, b ∈ h.next a := exists_congr fun b => hedges a b
  exact mem_properRoots.trans (hiff.trans mem_properRoots.symm)

/-- Searching from roots is alike searching from those with successors only, in a graph with the same
edges. -/
theorem alike_foldl_fromRoot (hedges : ∀ a b, b ∈ g.next a ↔ b ∈ h.next a) {roots : List α}
    (hroots : ∀ a ∈ roots, a ∈ g.roots) (hst : Alike g s t) (hs : Reachable g s)
    (ht : Reachable h t) (hpath : s.path = []) :
    Alike g (roots.foldl (fromRoot g (stepBound g)) s)
      ((roots.filter fun a => !(g.next a).isEmpty).foldl (fromRoot h (stepBound h)) t) := by
  induction roots generalizing s t with
  | nil => exact hst
  | cons a rest ih =>
    have ha : a ∈ g.roots := hroots a List.mem_cons_self
    have hrest : ∀ b ∈ rest, b ∈ g.roots := fun b hb => hroots b (List.mem_cons_of_mem _ hb)
    obtain ⟨hs', hend, -, -⟩ := fromRoot_spec ha hs hpath
    rw [List.foldl_cons]
    by_cases hnil : g.next a = []
    · rw [List.filter_cons_of_neg (by simp [hnil])]
      exact ih hrest ((alike_fromRoot_childless ha hnil hs hpath).trans hst) hs' ht hend
    · rw [List.filter_cons_of_pos (by simp [hnil]), List.foldl_cons]
      obtain ⟨b, hb⟩ := List.exists_mem_of_ne_nil _ hnil
      have ha' : a ∈ h.roots := mem_roots_of_mem_next ((hedges a b).1 hb)
      obtain ⟨ht', -, -, -⟩ := fromRoot_spec ha' ht (hst.path ▸ hpath)
      exact ih hrest (alike_fromRoot hedges hst hs ht hpath hnil) hs' ht' hend

theorem alike_completed (hedges : ∀ a b, b ∈ g.next a ↔ b ∈ h.next a) :
    Alike g (completed g) ((properRoots g).foldl (fromRoot h (stepBound h)) {}) := by
  have hroots : ∀ a ∈ (OrderedSet.ofList g.roots).toList, a ∈ g.roots :=
    fun a ha => OrderedSet.mem_ofList.1 ha
  exact alike_foldl_fromRoot hedges hroots (.refl g {}) .start .start rfl

end Cycle.Search

section Representations
variable [Std.TransOrd α] [Std.LawfulEqOrd α]

omit [Std.TransOrd α] in
theorem mem_next_adjacency {g : Digraph α} {a b : α} :
    b ∈ g.adjacency.next a ↔ (a, b) ∈ g.edges :=
  Digraph.mem_edges_iff_successors.symm

/-- Graphs with the same edges have the same cycles in the same order, whatever else their nodes are,
however their nodes and successors are ordered, and however often successors are repeated. -/
theorem cycles_eq_of_same_edges (g h : Adjacency α)
    (hedges : ∀ a b, b ∈ g.next a ↔ b ∈ h.next a) : cycles g = cycles h := by
  have hleft := (Cycle.Search.alike_completed hedges).found
  have hright := (Cycle.Search.alike_completed fun a b => (Iff.refl (b ∈ h.next a))).found
  rw [Cycle.Search.properRoots_congr hedges] at hleft
  rw [Cycle.Search.cycles_eq, Cycle.Search.cycles_eq, hleft, hright]

/-- Nodes 2 and 3 on cycles through node 1, which also leads to the leaf 5. -/
def sharedNode : Digraph Nat := .ofEdges [(1, 5), (3, 1), (1, 3), (2, 1), (1, 2)]

/-- The same edges with repetitions, with the leaf and an isolated node as keys. -/
def sharedNodeRows : List (Nat × List Nat) :=
  [(3, [1, 1]), (0, []), (5, []), (2, [1]), (1, [3, 2, 5, 3])]

theorem cycles_eq_of_same_edges_sharedNode :
    (∀ a b, b ∈ sharedNode.adjacency.next a ↔
        b ∈ (Adjacency.ofUnordered sharedNodeRows).next a) ∧
      cycles sharedNode.adjacency = cycles (Adjacency.ofUnordered sharedNodeRows) ∧
      cycles sharedNode.adjacency = [[1, 2, 1], [1, 3, 1]] := by
  have hedges : ∀ a b, b ∈ sharedNode.adjacency.next a ↔
      b ∈ (Adjacency.ofUnordered sharedNodeRows).next a := by
    intro a b
    have hlist : sharedNode.edges = [(1, 2), (1, 3), (1, 5), (2, 1), (3, 1)] := by decide
    rw [mem_next_adjacency, hlist]
    simp only [Adjacency.ofUnordered, sharedNodeRows, OrderedMap.lookup, Nat.compare_eq_eq]
    grind
  exact ⟨hedges, cycles_eq_of_same_edges _ _ hedges, by decide⟩

end Representations

end CallAtlas
