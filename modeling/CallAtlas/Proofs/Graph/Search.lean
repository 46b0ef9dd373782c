import CallAtlas.Graph.Cycle
import CallAtlas.Proofs.Lists
import CallAtlas.Proofs.Ordered.Lookup
import Mathlib.Data.List.Chain
/-!
# The states of a cycle search

`Transition` is one iteration of the search, and `Reachable` holds of the states between iterations.
In each of them the positions of the path are the inverse of the path, the nodes of the path are
linked by edges, and what is pending at a node is a final part of its successors. A weight of the
unvisited nodes and the pending edges falls with every transition, so that every search comes to an
end within the bound on its steps.
-/

namespace CallAtlas

namespace Cycle.Search

variable {α : Type} [Ord α]

def nodes (s : Search α) : List α := s.path.map (·.node)

variable [Std.TransOrd α]

/-- One iteration of a search whose path is not empty. -/
inductive Transition (g : Adjacency α) : Search α → Search α → Prop where
  /-- The innermost node has no successors left. -/
  | leave {visited onPath a below found} :
      Transition g ⟨visited, onPath, ⟨a, []⟩ :: below, found⟩
        ⟨visited, onPath.erase a, below, found⟩
  /-- The next successor is on the path. -/
  | close {visited onPath a b pending below found start} (hpos : onPath.get? b = some start) :
      Transition g ⟨visited, onPath, ⟨a, b :: pending⟩ :: below, found⟩
        ⟨visited, onPath, ⟨a, pending⟩ :: below,
          ((a :: below.map (·.node)).reverse.drop start ++ [b]) :: found⟩
  /-- The next successor was left earlier. -/
  | skip {visited onPath a b pending below found} (hpos : onPath.get? b = none)
      (hb : b ∈ visited) :
      Transition g ⟨visited, onPath, ⟨a, b :: pending⟩ :: below, found⟩
        ⟨visited, onPath, ⟨a, pending⟩ :: below, found⟩
  /-- The next successor has not been visited. -/
  | descend {visited onPath a b pending below found} (hpos : onPath.get? b = none)
      (hb : b ∉ visited) :
      Transition g ⟨visited, onPath, ⟨a, b :: pending⟩ :: below, found⟩
        (enter g ⟨visited, onPath, ⟨a, pending⟩ :: below, found⟩ b)

/-- The states of the search of a graph. -/
inductive Reachable (g : Adjacency α) : Search α → Prop where
  | start : Reachable g {}
  | root {s a} (hs : Reachable g s) (hpath : s.path = []) (ha : a ∈ g.roots)
      (hfresh : a ∉ s.visited) : Reachable g (s.enter g a)
  | step {s t} (hs : Reachable g s) (ht : Transition g s t) : Reachable g t

variable [Std.LawfulEqOrd α] {g : Adjacency α} {s t : Search α}

theorem transition_step (h : s.path ≠ []) : Transition g s (s.step g) := by
  obtain ⟨visited, onPath, path, found⟩ := s
  match path, h with
  | ⟨a, []⟩ :: below, _ => exact .leave
  | ⟨a, b :: pending⟩ :: below, _ =>
    simp only [step]
    split
    · rename_i start hpos
      exact .close hpos
    · rename_i hpos
      split
      · rename_i hb
        exact .skip hpos (OrderedSet.contains_iff.1 hb)
      · rename_i hb
        exact .descend hpos fun hmem => hb (OrderedSet.contains_iff.2 hmem)

theorem mem_orderedNext {a b : α} : b ∈ orderedNext g a ↔ b ∈ g.next a :=
  OrderedSet.mem_ofList

theorem nodup_orderedNext (a : α) : (orderedNext g a).Nodup := OrderedSet.nodup_toList _

omit [Std.TransOrd α] in
theorem mem_roots_of_mem_next {a b : α} (h : b ∈ g.next a) : a ∈ g.roots := by
  by_contra ha
  have hnone : g.next a = [] :=
    g.next_eq_nil a fun r hr => compare_ne_eq fun heq => ha (heq ▸ hr)
  rw [hnone] at h
  exact List.not_mem_nil h

theorem visited_of_transition (ht : Transition g s t) {a : α} (ha : a ∈ s.visited) :
    a ∈ t.visited := by
  cases ht with
  | descend => exact OrderedSet.mem_insert.2 (.inr ha)
  | _ => exact ha

/-- What holds of every state of a search. -/
structure Inv (g : Adjacency α) (s : Search α) : Prop where
  position : ∀ a i, s.onPath.get? a = some i ↔ s.nodes.reverse[i]? = some a
  visited : ∀ a ∈ s.nodes, a ∈ s.visited
  linked : s.nodes.IsChain fun a b => a ∈ g.next b
  pending : ∀ f ∈ s.path, f.pending <:+ orderedNext g f.node

namespace Inv

omit [Std.LawfulEqOrd α] in
theorem nodup (h : Inv g s) : s.nodes.Nodup := by
  rw [← List.nodup_reverse, List.nodup_iff_getElem?_ne_getElem?]
  -- a node at two places of the path would have two positions
  intro i j hij hj heq
  have hi := List.getElem?_eq_getElem hj
  have h1 := (h.position _ _).2 hi
  have h2 := (h.position _ _).2 (heq.trans hi)
  rw [h1] at h2
  cases h2
  exact Nat.lt_irrefl _ hij

omit [Std.LawfulEqOrd α] in
theorem not_mem_of_get?_eq_none (h : Inv g s) {a : α} (ha : s.onPath.get? a = none) :
    a ∉ s.nodes := by
  intro hmem
  obtain ⟨i, hi⟩ := List.mem_iff_getElem?.1 (List.mem_reverse.2 hmem)
  rw [(h.position a i).2 hi] at ha
  cases ha

omit [Std.LawfulEqOrd α] in
theorem get?_eq_none (h : Inv g s) {a : α} (ha : a ∉ s.nodes.reverse) :
    s.onPath.get? a = none := by
  cases hpos : s.onPath.get? a with
  | none => rfl
  | some i => exact absurd (List.mem_of_getElem? ((h.position a i).1 hpos)) ha

theorem mem_next_of_pending {visited : OrderedSet α} {onPath : OrderedMap α Nat} {a b : α}
    {pending : List α} {below : List (Frame α)} {found : List (List α)}
    (h : Inv g ⟨visited, onPath, ⟨a, b :: pending⟩ :: below, found⟩) : b ∈ g.next a :=
  mem_orderedNext.1 ((h.pending _ List.mem_cons_self).subset List.mem_cons_self)

omit [Std.LawfulEqOrd α] in
/-- Examining an edge changes nothing but what is pending. -/
theorem examined {visited : OrderedSet α} {onPath : OrderedMap α Nat} {a b : α}
    {pending : List α} {below : List (Frame α)} {found found' : List (List α)}
    (h : Inv g ⟨visited, onPath, ⟨a, b :: pending⟩ :: below, found⟩) :
    Inv g ⟨visited, onPath, ⟨a, pending⟩ :: below, found'⟩ where
  position := h.position
  visited := h.visited
  linked := h.linked
  pending := by
    intro f hf
    rcases List.mem_cons.1 hf with rfl | hf
    · exact (List.suffix_cons b pending).trans (h.pending _ List.mem_cons_self)
    · exact h.pending f (List.mem_cons_of_mem _ hf)

theorem enter (h : Inv g s) {b : α} (hb : b ∉ s.visited)
    (hlink : ∀ a ∈ s.nodes.head?, b ∈ g.next a) : Inv g (s.enter g b) where
  position := by
    intro x i
    have hfresh : b ∉ s.nodes.reverse :=
      fun hmem => hb (h.visited b (List.mem_reverse.1 hmem))
    have hlength : s.nodes.reverse.length = s.path.length := by simp [nodes]
    show (s.onPath.insert b s.path.length).get? x = some i ↔ (b :: s.nodes).reverse[i]? = some x
    rw [OrderedMap.get?_insert_eq_some, h.position, List.reverse_cons,
      getElem?_concat_eq_some, hlength]
    constructor
    · rintro (⟨rfl, rfl⟩ | ⟨-, hx⟩)
      · exact .inr ⟨rfl, rfl⟩
      · exact .inl hx
    · rintro (hx | ⟨rfl, rfl⟩)
      · refine .inr ⟨?_, hx⟩
        rintro rfl
        exact hfresh (List.mem_of_getElem? hx)
      · exact .inl ⟨rfl, rfl⟩
  visited := by
    intro a ha
    rcases List.mem_cons.1 ha with rfl | ha
    · exact OrderedSet.mem_insert.2 (.inl rfl)
    · exact OrderedSet.mem_insert.2 (.inr (h.visited a ha))
  linked := h.linked.cons hlink
  pending := by
    intro f hf
    rcases List.mem_cons.1 hf with rfl | hf
    · exact List.suffix_refl _
    · exact h.pending f hf

theorem leave {visited : OrderedSet α} {onPath : OrderedMap α Nat} {a : α}
    {below : List (Frame α)} {found : List (List α)}
    (h : Inv g ⟨visited, onPath, ⟨a, []⟩ :: below, found⟩) :
    Inv g ⟨visited, onPath.erase a, below, found⟩ where
  position := by
    intro x i
    have hnodup : (a :: below.map (·.node)).Nodup := h.nodup
    have ha : a ∉ (below.map (·.node)).reverse := by
      simpa using (List.nodup_cons.1 hnodup).1
    have hpos : onPath.get? x = some i ↔ ((below.map (·.node)).reverse ++ [a])[i]? = some x := by
      simpa [nodes] using h.position x i
    show (onPath.erase a).get? x = some i ↔ (below.map (·.node)).reverse[i]? = some x
    rw [OrderedMap.get?_erase_eq_some, hpos, getElem?_concat_eq_some]
    constructor
    · rintro ⟨hne, hx | ⟨rfl, -⟩⟩
      · exact hx
      · exact absurd rfl hne
    · intro hx
      refine ⟨?_, .inl hx⟩
      rintro rfl
      exact ha (List.mem_of_getElem? hx)
  visited := fun x hx => h.visited x (List.mem_cons_of_mem _ hx)
  linked := h.linked.tail
  pending := fun f hf => h.pending f (List.mem_cons_of_mem _ hf)

theorem transition (h : Inv g s) (ht : Transition g s t) : Inv g t := by
  cases ht with
  | leave => exact h.leave
  | close hpos => exact h.examined
  | skip hpos hb => exact h.examined
  | @descend visited onPath a b pending below found hpos hb =>
    have htaken : Inv g ⟨visited, onPath, ⟨a, pending⟩ :: below, found⟩ := h.examined
    refine htaken.enter hb fun x hx => ?_
    cases hx
    exact h.mem_next_of_pending

end Inv

theorem Reachable.inv (h : Reachable g s) : Inv g s := by
  induction h with
  | start =>
    exact ⟨by simp [nodes], by simp [nodes], List.IsChain.nil, by simp⟩
  | @root s a hs hpath ha hfresh ih =>
    refine ih.enter hfresh fun x hx => ?_
    simp [nodes, hpath] at hx
  | step hs ht ih => exact ih.transition ht

/-! ### Every search comes to an end -/

/-- The roots and their successors. -/
def allNodes (g : Adjacency α) : OrderedSet α :=
  .ofList (g.roots ++ g.roots.flatMap g.next)

/-- The iterations that a node costs: one for each of its edges, and one to leave it. -/
def cost (g : Adjacency α) (a : α) : Nat := 1 + (orderedNext g a).length

/-- The nodes that are still to be visited. -/
def unvisited (g : Adjacency α) (visited : OrderedSet α) : List α :=
  (allNodes g).toList.filter fun a => !visited.contains a

/-- The iterations that are left to a search. -/
def remaining (g : Adjacency α) (s : Search α) : Nat :=
  (s.path.map fun f => 1 + f.pending.length).sum + ((unvisited g s.visited).map (cost g)).sum

theorem mem_allNodes_of_mem_next {a b : α} (h : b ∈ g.next a) : b ∈ allNodes g :=
  OrderedSet.mem_ofList.2
    (List.mem_append_right _ (List.mem_flatMap.2 ⟨a, mem_roots_of_mem_next h, h⟩))

theorem sum_cost_unvisited_insert {visited : OrderedSet α} {b : α} (hb : b ∈ allNodes g)
    (hfresh : b ∉ visited) :
    cost g b + ((unvisited g (visited.insert b)).map (cost g)).sum =
      ((unvisited g visited).map (cost g)).sum := by
  -- `b` stands once among the nodes, and visiting it changes nothing for the others
  obtain ⟨before, after, hsplit⟩ := List.append_of_mem hb
  have hnodup := OrderedSet.nodup_toList (allNodes g)
  rw [hsplit, List.nodup_middle, List.nodup_cons, List.mem_append] at hnodup
  have hother : ∀ l : List α, b ∉ l →
      (l.filter fun a => !(visited.insert b).contains a) = l.filter fun a => !visited.contains a := by
    intro l hl
    refine List.filter_congr fun a ha => ?_
    have hne : a ≠ b := by
      rintro rfl
      exact hl ha
    have hiff : (visited.insert b).contains a = true ↔ visited.contains a = true := by
      simp [OrderedSet.contains_iff, hne]
    rw [Bool.eq_iff_iff.2 hiff]
  have hold : visited.contains b = false := by
    simpa [← OrderedSet.contains_iff] using hfresh
  have hnew : (visited.insert b).contains b = true :=
    OrderedSet.contains_iff.2 (OrderedSet.mem_insert.2 (.inl rfl))
  simp only [unvisited, hsplit, List.filter_append, List.filter_cons, hold, hnew,
    hother before fun h => hnodup.1 (.inl h), hother after fun h => hnodup.1 (.inr h)]
  simp
  omega

theorem remaining_enter {b : α} (hb : b ∈ allNodes g) (hfresh : b ∉ s.visited) :
    remaining g (s.enter g b) = remaining g s := by
  have hcost := sum_cost_unvisited_insert hb hfresh
  simp only [remaining, Search.enter, List.map_cons, List.sum_cons]
  rw [← hcost, cost]
  omega

theorem remaining_transition (h : Inv g s) (ht : Transition g s t) :
    remaining g t + 1 = remaining g s := by
  cases ht with
  | leave =>
    simp only [remaining, List.map_cons, List.sum_cons, List.length_nil]
    omega
  | close hpos =>
    simp only [remaining, List.map_cons, List.sum_cons, List.length_cons]
    omega
  | skip hpos hb =>
    simp only [remaining, List.map_cons, List.sum_cons, List.length_cons]
    omega
  | @descend visited onPath a b pending below found hpos hb =>
    rw [remaining_enter (mem_allNodes_of_mem_next h.mem_next_of_pending) hb]
    simp only [remaining, List.map_cons, List.sum_cons, List.length_cons]
    omega

theorem sum_cost_allNodes_le (g : Adjacency α) :
    ((allNodes g).toList.map (cost g)).sum ≤ stepBound g := by
  have hnodup := OrderedSet.nodup_toList (allNodes g)
  have hsplit : ∀ l : List α, (l.map (cost g)).sum =
      l.length + (l.map fun a => (orderedNext g a).length).sum := by
    intro l
    induction l with
    | nil => rfl
    | cons a l ih =>
      simp only [List.map_cons, List.sum_cons, List.length_cons, ih, cost]
      omega
  have hcount : (allNodes g).toList.length ≤
      g.roots.length + (g.roots.flatMap g.next).length := by
    rw [← List.length_append]
    exact OrderedSet.length_ofList_le _
  -- a node with successors is a root
  have hedges : ((allNodes g).toList.map fun a => (orderedNext g a).length).sum ≤
      (g.roots.map fun a => (orderedNext g a).length).sum := by
    refine sum_map_le_of_nodup _ hnodup g.roots fun a _ hne => ?_
    obtain ⟨b, hb⟩ := List.exists_mem_of_length_pos (Nat.pos_of_ne_zero hne)
    exact mem_roots_of_mem_next (mem_orderedNext.1 hb)
  have hnext : (g.roots.map fun a => (orderedNext g a).length).sum ≤
      (g.roots.flatMap g.next).length := by
    rw [List.length_flatMap]
    exact List.sum_le_sum fun a _ => OrderedSet.length_ofList_le (g.next a)
  rw [hsplit, stepBound]
  omega

theorem remaining_le (hpath : s.path = []) : remaining g s ≤ stepBound g := by
  have hnodup : (unvisited g s.visited).Nodup :=
    (OrderedSet.nodup_toList (allNodes g)).sublist List.filter_sublist
  have hle := sum_map_le_of_nodup (cost g) hnodup (allNodes g).toList
    fun a ha _ => List.mem_of_mem_filter ha
  have hbound := sum_cost_allNodes_le g
  simp only [remaining, hpath, List.map_nil, List.sum_nil, Nat.zero_add]
  omega

theorem run_spec {fuel : Nat} (h : Reachable g s) (hfuel : remaining g s ≤ fuel) :
    Reachable g (run g fuel s) ∧ (run g fuel s).path = [] ∧
      ∀ a ∈ s.visited, a ∈ (run g fuel s).visited := by
  induction fuel generalizing s with
  | zero =>
    have hpath : s.path = [] := by
      cases hp : s.path with
      | nil => rfl
      | cons f below => simp [remaining, hp] at hfuel
    exact ⟨h, hpath, fun a ha => ha⟩
  | succ fuel ih =>
    cases hp : s.path with
    | nil =>
      simp only [run, hp]
      exact ⟨h, trivial, fun a ha => ha⟩
    | cons f below =>
      have ht : Transition g s (s.step g) := transition_step (by simp [hp])
      have hless := remaining_transition h.inv ht
      obtain ⟨hreach, hend, hvisited⟩ := ih (h.step ht) (by omega)
      simp only [run, hp]
      exact ⟨hreach, hend, fun a ha => hvisited a (visited_of_transition ht ha)⟩

theorem remaining_enter_root_le {a : α} (hpath : s.path = []) (ha : a ∈ g.roots)
    (hfresh : a ∉ s.visited) : remaining g (s.enter g a) ≤ stepBound g := by
  have hnode : a ∈ allNodes g := OrderedSet.mem_ofList.2 (List.mem_append_left _ ha)
  rw [remaining_enter hnode hfresh]
  exact remaining_le hpath

/-- Searching from a root visits it. -/
theorem fromRoot_spec {a : α} (ha : a ∈ g.roots) (h : Reachable g s) (hpath : s.path = []) :
    Reachable g (fromRoot g (stepBound g) s a) ∧ (fromRoot g (stepBound g) s a).path = [] ∧
      (∀ b ∈ s.visited, b ∈ (fromRoot g (stepBound g) s a).visited) ∧
      a ∈ (fromRoot g (stepBound g) s a).visited := by
  unfold fromRoot
  split
  · rename_i hmem
    exact ⟨h, hpath, fun b hb => hb, OrderedSet.contains_iff.1 hmem⟩
  · rename_i hmem
    have hfresh : a ∉ s.visited := fun hv => hmem (OrderedSet.contains_iff.2 hv)
    obtain ⟨hreach, hend, hvisited⟩ :=
      run_spec (h.root hpath ha hfresh) (remaining_enter_root_le hpath ha hfresh)
    exact ⟨hreach, hend, fun b hb => hvisited b (OrderedSet.mem_insert.2 (.inr hb)),
      hvisited a (OrderedSet.mem_insert.2 (.inl rfl))⟩

/-- Searching from roots one after the other visits each of them. -/
theorem foldl_fromRoot_spec (roots : List α) (hroots : ∀ a ∈ roots, a ∈ g.roots)
    (h : Reachable g s) (hpath : s.path = []) :
    Reachable g (roots.foldl (fromRoot g (stepBound g)) s) ∧
      (roots.foldl (fromRoot g (stepBound g)) s).path = [] ∧
      (∀ a ∈ s.visited, a ∈ (roots.foldl (fromRoot g (stepBound g)) s).visited) ∧
      ∀ a ∈ roots, a ∈ (roots.foldl (fromRoot g (stepBound g)) s).visited := by
  induction roots generalizing s with
  | nil => exact ⟨h, hpath, fun a ha => ha, by simp⟩
  | cons a rest ih =>
    have hrest : ∀ b ∈ rest, b ∈ g.roots := fun b hb => hroots b (List.mem_cons_of_mem _ hb)
    obtain ⟨hreach, hend, hold, hnew⟩ := fromRoot_spec (hroots a List.mem_cons_self) h hpath
    obtain ⟨hreach', hend', hold', hnew'⟩ := ih hrest hreach hend
    refine ⟨hreach', hend', fun b hb => hold' b (hold b hb), fun b hb => ?_⟩
    rcases List.mem_cons.1 hb with rfl | hb
    · exact hold' b hnew
    · exact hnew' b hb

/-- The state in which the search of a graph ends. -/
def completed (g : Adjacency α) : Search α :=
  (OrderedSet.ofList g.roots).toList.foldl (fromRoot g (stepBound g)) {}

omit [Std.LawfulEqOrd α] in
theorem cycles_eq (g : Adjacency α) : cycles g = (completed g).found.reverse := rfl

/-- The search of a graph leaves every node and visits every root. -/
theorem completed_spec (g : Adjacency α) :
    Reachable g (completed g) ∧ (completed g).path = [] ∧
      ∀ a ∈ g.roots, a ∈ (completed g).visited := by
  obtain ⟨hreach, hend, -, hvisited⟩ := foldl_fromRoot_spec (g := g) (s := {})
    (OrderedSet.ofList g.roots).toList (fun a ha => OrderedSet.mem_ofList.1 ha) .start rfl
  exact ⟨hreach, hend, fun a ha => hvisited a (OrderedSet.mem_ofList.2 ha)⟩

end Cycle.Search

end CallAtlas
