import CallAtlas.Proofs.Graph.ChildlessNodes
import CallAtlas.Proofs.Ordered.Extensionality
import Mathlib.Data.Finset.Card
import Mathlib.Data.List.Dedup
import Mathlib.Logic.Relation
/-!
# The search as a recursion

`DepthFirst.explore` is depth-first search as it is taught: it scans the current path for a successor,
and where it goes on to a new node it calls itself. The search with a stack of frames spreads each call
over many transitions. They leave a frame behind in the state in which the call returns, and so both
searches report the same cycles in the same order.
-/

namespace CallAtlas

namespace DepthFirst

variable {α : Type} [Ord α]

/-- What a search that starts with some nodes visited comes to. -/
structure Explored (before : OrderedSet α) where
  /-- The nodes visited in the end. -/
  visited : OrderedSet α
  /-- The cycles reported, in order. -/
  cycles : List (List α)
  /-- A node that has been visited stays so. -/
  visited_of_mem : ∀ a ∈ before, a ∈ visited

variable [DecidableEq α]

/-- The members of a list in order and without repetitions. -/
def sorted (l : List α) : List α := (l.mergeSort fun a b => (compare a b).isLE).dedup

/-- The number of roots that are still to be visited. -/
def ahead (g : Adjacency α) (visited : OrderedSet α) : Nat :=
  (g.roots.toFinset.filter (· ∉ visited)).card

theorem ahead_le (g : Adjacency α) {visited visited' : OrderedSet α}
    (h : ∀ a ∈ visited, a ∈ visited') : ahead g visited' ≤ ahead g visited := by
  apply Finset.card_le_card
  intro a ha
  rw [Finset.mem_filter] at ha ⊢
  exact ⟨ha.1, fun hmem => ha.2 (h a hmem)⟩

variable [Std.TransOrd α] [Std.LawfulEqOrd α]

theorem ahead_insert_lt (g : Adjacency α) {visited : OrderedSet α} {b : α} (hb : b ∈ g.roots)
    (hfresh : b ∉ visited) : ahead g (visited.insert b) < ahead g visited := by
  apply Finset.card_lt_card
  rw [Finset.ssubset_iff_of_subset]
  · refine ⟨b, Finset.mem_filter.2 ⟨List.mem_toFinset.2 hb, hfresh⟩, fun hmem => ?_⟩
    exact (Finset.mem_filter.1 hmem).2 (OrderedSet.mem_insert.2 (.inl rfl))
  · intro a ha
    rw [Finset.mem_filter] at ha ⊢
    exact ⟨ha.1, fun hmem => ha.2 (OrderedSet.mem_insert.2 (.inr hmem))⟩

/-- A new node is one root less to visit, unless it has no successors. -/
theorem ahead_insert_lt_or (g : Adjacency α) {visited : OrderedSet α} {b : α}
    (hfresh : b ∉ visited) :
    ahead g (visited.insert b) < ahead g visited ∨
      ahead g (visited.insert b) ≤ ahead g visited ∧ sorted (g.next b) = [] := by
  by_cases hb : b ∈ g.roots
  · exact .inl (ahead_insert_lt g hb hfresh)
  · have hnone : g.next b = [] :=
      g.next_eq_nil b fun r hr => compare_ne_eq fun heq => hb (heq ▸ hr)
    refine .inr ⟨ahead_le g fun a ha => OrderedSet.mem_insert.2 (.inr ha), ?_⟩
    rw [sorted, hnone, List.mergeSort_nil, List.dedup_nil]

/-- Looks at nodes one after the other from the end of a path. A node on the path closes a cycle, and
one visited before is skipped. Any other one is marked, and its successors are explored from the path
that it ends before the nodes behind it are looked at. -/
def explore (g : Adjacency α) (path pending : List α) (visited : OrderedSet α) :
    Explored visited :=
  match pending with
  | [] => ⟨visited, [], fun _ h => h⟩
  | b :: rest =>
    if b ∈ path then
      let behind := explore g path rest visited
      { behind with cycles := (path.drop (path.idxOf b) ++ [b]) :: behind.cycles }
    else if b ∈ visited then explore g path rest visited
    else
      let within := explore g (path ++ [b]) (sorted (g.next b)) (visited.insert b)
      let behind := explore g path rest within.visited
      ⟨behind.visited, within.cycles ++ behind.cycles, fun a ha =>
        behind.visited_of_mem a (within.visited_of_mem a (OrderedSet.mem_insert.2 (.inr ha)))⟩
termination_by (ahead g visited, pending.length)
decreasing_by
  · exact .right _ (Nat.lt_succ_self _)
  · exact .right _ (Nat.lt_succ_self _)
  · rename_i hfresh
    rcases ahead_insert_lt_or g hfresh with hlt | ⟨hle, hnone⟩
    · exact .left _ _ hlt
    · rw [hnone]
      exact .right' _ hle (Nat.succ_pos _)
  · refine .right' _ (ahead_le g fun a ha => ?_) (Nat.lt_succ_self _)
    exact within.visited_of_mem a (OrderedSet.mem_insert.2 (.inr ha))

/-- The cycles of a graph: each node that has not been visited when its turn comes begins a path. -/
def search (g : Adjacency α) : List (List α) := (explore g [] (sorted g.roots) ∅).cycles

theorem ascending_sorted (l : List α) : (sorted l).Pairwise fun a b => compare a b = .lt := by
  have hle : (l.mergeSort fun a b => (compare a b).isLE).Pairwise
      fun a b => (compare a b).isLE = true := by
    apply List.pairwise_mergeSort
    · intro a b c hab hbc
      exact Std.TransCmp.isLE_trans hab hbc
    · intro a b
      cases hab : compare a b <;> simp [Std.OrientedCmp.eq_swap (a := b), hab]
  apply ((hle.sublist (List.dedup_sublist _)).and (List.nodup_dedup _)).imp
  rintro a b ⟨hle, hne⟩
  exact (Ordering.isLE_iff_eq_lt_or_eq_eq.1 hle).resolve_right (compare_ne_eq hne)

theorem toList_ofList_eq_sorted (l : List α) : (OrderedSet.ofList l).toList = sorted l := by
  apply eq_of_ascending id (OrderedSet.ofList l).ascending (ascending_sorted l)
  intro a
  rw [sorted, List.mem_dedup, List.mem_mergeSort]
  exact OrderedSet.mem_ofList

end DepthFirst

namespace Cycle.Search

open DepthFirst (explore sorted)
open Relation (ReflTransGen)

variable {α : Type} [Ord α] [Std.TransOrd α] [Std.LawfulEqOrd α]
variable {g : Adjacency α} {s t : Search α}

/-! ### Transitions of a run -/

theorem step_eq_of_transition (ht : Transition g s t) : s.step g = t := by
  cases ht with
  | leave => rfl
  | close hpos => exact step_close hpos
  | skip hpos hb => exact step_skip hpos hb
  | descend hpos hb => exact step_descend hpos hb

omit [Std.LawfulEqOrd α] in
theorem path_ne_nil_of_transition (ht : Transition g s t) : s.path ≠ [] := by
  cases ht <;> exact List.cons_ne_nil _ _

theorem Inv.steps (h : Inv g s) (hsteps : ReflTransGen (Transition g) s t) : Inv g t := by
  induction hsteps with
  | refl => exact h
  | tail _ ht ih => exact ih.transition ht

/-- With enough fuel a search ends where its transitions lead. -/
theorem run_eq_of_steps {fuel : Nat} (h : Inv g s) (hsteps : ReflTransGen (Transition g) s t)
    (hend : t.path = []) (hfuel : remaining g s ≤ fuel) : run g fuel s = t := by
  induction hsteps using ReflTransGen.head_induction_on generalizing fuel with
  | refl => exact run_of_path_nil g fuel hend
  | head ht _ ih =>
    have hless := remaining_transition h ht
    obtain ⟨n, rfl⟩ : ∃ n, fuel = n + 1 := ⟨fuel - 1, by omega⟩
    rw [run_succ n (path_ne_nil_of_transition ht), step_eq_of_transition ht]
    exact ih (h.transition ht) (by omega)

/-! ### Calls as transitions -/

variable [DecidableEq α]

/-- The transitions on a frame, those on the frames above it included, come to what a call on its
pending nodes comes to. -/
theorem exists_steps_explore (path pending : List α) (visited : OrderedSet α)
    {onPath : OrderedMap α Nat} {a : α} {below : List (Frame α)} {found : List (List α)}
    (h : Inv g ⟨visited, onPath, ⟨a, pending⟩ :: below, found⟩)
    (hpath : (a :: below.map (·.node)).reverse = path) :
    ∃ onPath', ReflTransGen (Transition g) ⟨visited, onPath, ⟨a, pending⟩ :: below, found⟩
      ⟨(explore g path pending visited).visited, onPath', ⟨a, []⟩ :: below,
        (explore g path pending visited).cycles.reverse ++ found⟩ := by
  induction path, pending, visited using DepthFirst.explore.induct g generalizing onPath a below found with
  | case1 path visited =>
    rw [explore]
    exact ⟨onPath, .refl⟩
  | case2 path visited b rest hb ih =>
    have hpos : onPath.get? b = some (path.idxOf b) := by
      rw [← hpath] at hb ⊢
      exact (h.position b _).2 (List.getElem?_idxOf hb)
    obtain ⟨onPath', hsteps⟩ := ih h.examined hpath
    rw [explore, if_pos hb]
    refine ⟨onPath', .head (.close hpos) ?_⟩
    rw [hpath]
    simpa using hsteps
  | case3 path visited b rest hb hvisited ih =>
    have hpos : onPath.get? b = none := h.get?_eq_none (hpath ▸ hb)
    obtain ⟨onPath', hsteps⟩ := ih h.examined hpath
    rw [explore, if_neg hb, if_pos hvisited]
    exact ⟨onPath', .head (.skip hpos hvisited) hsteps⟩
  | case4 path visited b rest hb hfresh within ihWithin ihBehind =>
    have hpos : onPath.get? b = none := h.get?_eq_none (hpath ▸ hb)
    have hnext : orderedNext g b = sorted (g.next b) := DepthFirst.toList_ofList_eq_sorted _
    have hdown : Transition g ⟨visited, onPath, ⟨a, b :: rest⟩ :: below, found⟩
        ⟨visited.insert b, onPath.insert b (below.length + 1),
          ⟨b, sorted (g.next b)⟩ :: ⟨a, rest⟩ :: below, found⟩ :=
      hnext ▸ .descend hpos hfresh
    -- the call on the successors of `b` is done when the frame of `b` has nothing left
    obtain ⟨onPath₁, hwithin⟩ := ihWithin (h.transition hdown) (by simp [← hpath])
    have hup : Transition g
        ⟨within.visited, onPath₁, ⟨b, []⟩ :: ⟨a, rest⟩ :: below, within.cycles.reverse ++ found⟩
        ⟨within.visited, onPath₁.erase b, ⟨a, rest⟩ :: below, within.cycles.reverse ++ found⟩ :=
      .leave
    have hreturned := ((h.transition hdown).steps hwithin).transition hup
    obtain ⟨onPath₂, hbehind⟩ := ihBehind hreturned hpath
    refine ⟨onPath₂, ?_⟩
    rw [explore, if_neg hb, if_neg hfresh]
    dsimp only
    rw [List.reverse_append, List.append_assoc]
    exact (ReflTransGen.head hdown hwithin).trans (.head hup hbehind)

/-- A search from a new root is a call on the successors of the root. -/
theorem fromRoot_eq_explore {a : α} (ha : a ∈ g.roots) (hs : Reachable g s) (hpath : s.path = [])
    (hfresh : a ∉ s.visited) :
    (fromRoot g (stepBound g) s a).visited =
        (explore g [a] (sorted (g.next a)) (s.visited.insert a)).visited ∧
      (fromRoot g (stepBound g) s a).found =
        (explore g [a] (sorted (g.next a)) (s.visited.insert a)).cycles.reverse ++ s.found := by
  have hentered : Inv g (s.enter g a) := (hs.root hpath ha hfresh).inv
  have hfuel := remaining_enter_root_le hpath ha hfresh
  have hnext : orderedNext g a = sorted (g.next a) := DepthFirst.toList_ofList_eq_sorted _
  have hcontains : ¬ s.visited.contains a = true := fun h => hfresh (OrderedSet.contains_iff.1 h)
  obtain ⟨visited, onPath, path, found⟩ := s
  cases hpath
  rw [fromRoot, if_neg hcontains]
  simp only [enter, hnext] at hentered hfuel ⊢
  obtain ⟨onPath', hsteps⟩ := exists_steps_explore [a] _ _ hentered rfl
  rw [run_eq_of_steps hentered (hsteps.tail .leave) rfl hfuel]
  exact ⟨rfl, rfl⟩

/-- Searches from roots one after the other are a call on the roots from no path. -/
theorem found_foldl_fromRoot (roots : List α) (hroots : ∀ a ∈ roots, a ∈ g.roots)
    (hs : Reachable g s) (hpath : s.path = []) :
    (roots.foldl (fromRoot g (stepBound g)) s).found =
      (explore g [] roots s.visited).cycles.reverse ++ s.found := by
  induction roots generalizing s with
  | nil =>
    rw [explore]
    rfl
  | cons a rest ih =>
    have ha : a ∈ g.roots := hroots a List.mem_cons_self
    have hrest : ∀ b ∈ rest, b ∈ g.roots := fun b hb => hroots b (List.mem_cons_of_mem _ hb)
    rw [List.foldl_cons, explore, if_neg List.not_mem_nil]
    by_cases hvisited : a ∈ s.visited
    · have hskipped : fromRoot g (stepBound g) s a = s := by
        rw [fromRoot, if_pos (OrderedSet.contains_iff.2 hvisited)]
      rw [if_pos hvisited, hskipped, ih hrest hs hpath]
    · obtain ⟨hreach, hend, -, -⟩ := fromRoot_spec ha hs hpath
      obtain ⟨hwithin, hfound⟩ := fromRoot_eq_explore ha hs hpath hvisited
      rw [if_neg hvisited, ih hrest hreach hend, hwithin, hfound]
      simp only [List.nil_append, List.reverse_append, List.append_assoc]

end Cycle.Search

variable {α : Type} [Ord α] [Std.TransOrd α] [Std.LawfulEqOrd α] [DecidableEq α]

/-- The search with a stack of frames finds the cycles of the recursive search, in the same order. -/
theorem cycles_eq_search (g : Adjacency α) : cycles g = DepthFirst.search g := by
  have hroots : (OrderedSet.ofList g.roots).toList = DepthFirst.sorted g.roots :=
    DepthFirst.toList_ofList_eq_sorted g.roots
  have hfound := Cycle.Search.found_foldl_fromRoot (g := g) (s := {})
    (OrderedSet.ofList g.roots).toList (fun a ha => OrderedSet.mem_ofList.1 ha) .start rfl
  rw [Cycle.Search.cycles_eq, Cycle.Search.completed, hfound, hroots, List.append_nil,
    List.reverse_reverse]
  rfl

/-- Two roots and two loops; the cycle from 1 through 3 and 2 is missed, since 2 has been left. -/
theorem cycles_eq_search_loops :
    DepthFirst.search
        (Adjacency.ofRows (.ofList [(1, [3, 2, 2]), (2, [1]), (3, [3, 2]), (4, [4, 1])])) =
      [[1, 2, 1], [3, 3], [4, 4]] :=
  (cycles_eq_search _).symm.trans (by decide)

end CallAtlas
