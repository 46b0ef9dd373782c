import CallAtlas.Proofs.Graph.ClosedPath
import CallAtlas.Proofs.Graph.Search
/-!
# Every cycle found is elementary

A search cuts a cycle out of its path at the position of the node that it has come back to. Since
the positions are the inverse of the path and the nodes of the path are linked by edges, the cut is
a closed path along edges without repetitions.
-/

namespace CallAtlas

variable {α : Type} [Ord α]

/-- A closed path along edges that visits no node twice. -/
structure ElementaryCycle (g : Adjacency α) (c : List α) : Prop where
  two_le_length : 2 ≤ c.length
  closed : c.head? = c.getLast?
  nodup : c.dropLast.Nodup
  linked : c.IsChain fun x y => y ∈ g.next x

variable [Std.TransOrd α] [Std.LawfulEqOrd α] {g : Adjacency α}

namespace Cycle.Search

section Cut
variable {visited : OrderedSet α} {onPath : OrderedMap α Nat} {a b : α} {pending : List α}
variable {below : List (Frame α)} {found : List (List α)} {start : Nat}
variable (h : Inv g ⟨visited, onPath, ⟨a, b :: pending⟩ :: below, found⟩)
include h

omit [Std.LawfulEqOrd α] in
theorem Inv.cut_eq_cons (hpos : onPath.get? b = some start) :
    ∃ rest, (a :: below.map (·.node)).reverse.drop start = b :: rest := by
  have hb : (a :: below.map (·.node)).reverse[start]? = some b := (h.position b start).1 hpos
  obtain ⟨hlt, hget⟩ := List.getElem?_eq_some_iff.1 hb
  exact ⟨_, by rw [List.drop_eq_getElem_cons hlt, hget]⟩

omit [Std.LawfulEqOrd α] in
theorem Inv.getLast?_cut (hpos : onPath.get? b = some start) :
    ((a :: below.map (·.node)).reverse.drop start).getLast? = some a := by
  obtain ⟨rest, hcut⟩ := h.cut_eq_cons hpos
  have hlt : start < (a :: below.map (·.node)).reverse.length := by
    rw [← List.drop_eq_nil_iff.not.trans Nat.not_le, hcut]
    exact List.cons_ne_nil b rest
  rw [List.getLast?_drop, if_neg (Nat.not_le.2 hlt), List.getLast?_reverse]
  rfl

theorem Inv.elementaryCycle_cut (hpos : onPath.get? b = some start) :
    ElementaryCycle g ((a :: below.map (·.node)).reverse.drop start ++ [b]) := by
  obtain ⟨rest, hcut⟩ := h.cut_eq_cons hpos
  refine ⟨?length, ?closed, ?nodup, ?linked⟩
  case length =>
    rw [hcut]
    simp
  case closed => rw [List.getLast?_concat, hcut, List.cons_append, List.head?_cons]
  case nodup =>
    have hnodup : (a :: below.map (·.node)).Nodup := h.nodup
    rw [List.dropLast_concat]
    exact (List.nodup_reverse.2 hnodup).sublist (List.drop_sublist _ _)
  case linked =>
    have hpath : (a :: below.map (·.node)).reverse.IsChain fun x y => y ∈ g.next x :=
      List.isChain_reverse.2 h.linked
    refine (hpath.drop start).append (List.isChain_singleton b) fun x hx y hy => ?_
    rw [h.getLast?_cut hpos] at hx
    cases hx
    cases hy
    exact h.mem_next_of_pending

end Cut

theorem Reachable.elementaryCycle {s : Search α} (h : Reachable g s) :
    ∀ c ∈ s.found, ElementaryCycle g c := by
  induction h with
  | start => exact fun c hc => nomatch hc
  | root hs hpath ha hfresh ih => exact ih
  | step hs ht ih =>
    have hinv := hs.inv
    cases ht with
    | close hpos =>
      intro c hc
      rcases List.mem_cons.1 hc with rfl | hc
      · exact hinv.elementaryCycle_cut hpos
      · exact ih c hc
    | leave => exact ih
    | skip hpos hb => exact ih
    | descend hpos hb => exact ih

end Cycle.Search

theorem elementaryCycle_of_mem_cycles {c : List α} (hc : c ∈ cycles g) : ElementaryCycle g c :=
  (Cycle.Search.completed_spec g).1.elementaryCycle c (List.mem_reverse.1 hc)

/-- Every cycle found in a graph is a closed path along its edges that visits no node twice. -/
theorem cycles_elementary (g : Adjacency α) :
    ∀ c ∈ cycles g, 2 ≤ c.length ∧ c.head? = c.getLast? ∧ c.dropLast.Nodup ∧
      c.IsChain fun x y => y ∈ g.next x :=
  fun c hc =>
    have h : ElementaryCycle g c := elementaryCycle_of_mem_cycles hc
    ⟨h.two_le_length, h.closed, h.nodup, h.linked⟩

/-- A cycle through all nodes of a graph that also has a loop and a shorter cycle. -/
theorem cycles_elementary_around :
    [1, 2, 3, 1] ∈ cycles (Adjacency.ofRows (.ofList [(1, [2, 1]), (2, [3]), (3, [1, 2])])) ∧
      2 ≤ [1, 2, 3, 1].length ∧ [1, 2, 3, 1].head? = [1, 2, 3, 1].getLast? ∧
      [1, 2, 3, 1].dropLast.Nodup ∧ [1, 2, 3, 1].IsChain fun x y => y ∈
        (Adjacency.ofRows (.ofList [(1, [2, 1]), (2, [3]), (3, [1, 2])])).next x :=
  have hmem : [1, 2, 3, 1] ∈
      cycles (Adjacency.ofRows (.ofList [(1, [2, 1]), (2, [3]), (3, [1, 2])])) := by decide
  ⟨hmem, cycles_elementary _ _ hmem⟩

end CallAtlas
