import CallAtlas.Proofs.Graph.ElementaryCycles
import Mathlib.Logic.Relation
/-!
# Without the closing edges a graph is acyclic

The search misses cycles, but from every closed walk it takes an edge as the closing edge of some
cycle. An open edge is one that closes no cycle found so far. When a node is left, its open edges
lead to nodes left before, so that the nodes left so far are accessible against the open edges; the
accessibility stands for the order in which they were left. In the end every node is accessible.
-/

namespace CallAtlas

variable {α : Type} [Ord α]

/-- The edges of a graph, except the closing edges of some cycles. -/
def OpenEdge (g : Adjacency α) (found : List (List α)) (x y : α) : Prop :=
  y ∈ g.next x ∧ ∀ c ∈ found, ¬ [x, y] <:+ c

namespace Cycle.Search

def Left (s : Search α) (a : α) : Prop := a ∈ s.visited ∧ a ∉ s.nodes

/-- What has become of an edge of the path: it is pending or closed, or its end has been left or is
the next node of the path. -/
def Accounted (s : Search α) (f : Frame α) (y : α) : Prop :=
  y ∈ f.pending ∨ (∃ c ∈ s.found, [f.node, y] <:+ c) ∨ Left s y ∨ [y, f.node] <:+: s.nodes

/-- The nodes left are accessible, and the edges of the path are accounted for. -/
structure Exhausted (g : Adjacency α) (s : Search α) : Prop where
  acc : ∀ a, Left s a → Acc (fun y x => OpenEdge g s.found x y) a
  edge : ∀ f ∈ s.path, ∀ y ∈ g.next f.node, Accounted s f y

section Advance
variable {g : Adjacency α} {visited : OrderedSet α} {onPath : OrderedMap α Nat} {a b : α}
variable {pending : List α} {below : List (Frame α)} {found found' : List (List α)}

/-- Taking an edge from what is pending leaves the other edges accounted for. -/
theorem accounted_advance
    (h : Exhausted g ⟨visited, onPath, ⟨a, b :: pending⟩ :: below, found⟩)
    (hfound : ∀ c ∈ found, c ∈ found') :
    ∀ f ∈ ⟨a, pending⟩ :: below, ∀ y ∈ g.next f.node,
      Accounted ⟨visited, onPath, ⟨a, pending⟩ :: below, found'⟩ f y ∨ f.node = a ∧ y = b := by
  intro f hf y hy
  -- the frame of `a` differs in what is pending, and no other frame differs
  have hold : Accounted ⟨visited, onPath, ⟨a, b :: pending⟩ :: below, found⟩ f y ∨
      f.node = a ∧ y = b := by
    rcases List.mem_cons.1 hf with rfl | hf
    · rcases h.edge _ List.mem_cons_self y hy with hpending | hrest
      · rcases List.mem_cons.1 hpending with rfl | hpending
        · exact .inr ⟨rfl, rfl⟩
        · exact .inl (.inl hpending)
      · exact .inl (.inr hrest)
    · exact .inl (h.edge f (List.mem_cons_of_mem _ hf) y hy)
  refine hold.imp_left fun hy => ?_
  rcases hy with hy | ⟨c, hc, hy⟩ | hy
  · exact .inl hy
  · exact .inr (.inl ⟨c, hfound c hc, hy⟩)
  · exact .inr (.inr hy)

theorem acc_advance
    (h : Exhausted g ⟨visited, onPath, ⟨a, b :: pending⟩ :: below, found⟩)
    (hfound : ∀ c ∈ found, c ∈ found') (x : α)
    (hx : Left (⟨visited, onPath, ⟨a, pending⟩ :: below, found'⟩ : Search α) x) :
    Acc (fun y x => OpenEdge g found' x y) x :=
  Subrelation.accessible (fun hyx => ⟨hyx.1, fun c hc => hyx.2 c (hfound c hc)⟩) (h.acc x hx)

theorem Exhausted.advance
    (h : Exhausted g ⟨visited, onPath, ⟨a, b :: pending⟩ :: below, found⟩)
    (hfound : ∀ c ∈ found, c ∈ found')
    (hb : (∃ c ∈ found', [a, b] <:+ c) ∨
      Left (⟨visited, onPath, ⟨a, pending⟩ :: below, found'⟩ : Search α) b) :
    Exhausted g ⟨visited, onPath, ⟨a, pending⟩ :: below, found'⟩ where
  acc := acc_advance h hfound
  edge := by
    intro f hf y hy
    rcases accounted_advance h hfound f hf y hy with hold | ⟨rfl, rfl⟩
    · exact hold
    · exact .inr (hb.imp_right .inl)

end Advance

variable [Std.TransOrd α] [Std.LawfulEqOrd α] {g : Adjacency α} {s t : Search α}

theorem left_enter {a b : α} (hb : b ∉ s.visited) : Left (s.enter g b) a ↔ Left s a := by
  have hvisited : a ∈ (s.enter g b).visited ↔ a = b ∨ a ∈ s.visited := OrderedSet.mem_insert
  have hnodes : a ∈ (s.enter g b).nodes ↔ a = b ∨ a ∈ s.nodes := List.mem_cons
  rw [Left, Left, hvisited, hnodes, not_or]
  constructor
  · exact fun ⟨ha, hne, hout⟩ => ⟨ha.resolve_left hne, hout⟩
  · refine fun ⟨ha, hout⟩ => ⟨.inr ha, ?_, hout⟩
    rintro rfl
    exact hb ha

namespace Exhausted

/-- A node may be entered when the edges of the path are accounted for but for those that lead to it
from the innermost node. -/
theorem enter {b : α} (hb : b ∉ s.visited)
    (hacc : ∀ a, Left s a → Acc (fun y x => OpenEdge g s.found x y) a)
    (hedge : ∀ f ∈ s.path, ∀ y ∈ g.next f.node,
      Accounted s f y ∨ s.nodes.head? = some f.node ∧ y = b) :
    Exhausted g (s.enter g b) where
  acc := fun a ha => hacc a ((left_enter hb).1 ha)
  edge := by
    intro f hf y hy
    rcases List.mem_cons.1 hf with rfl | hf
    · exact .inl (mem_orderedNext.2 hy)
    · rcases hedge f hf y hy with (hy | hy | hy | hy) | ⟨hhead, rfl⟩
      · exact .inl hy
      · exact .inr (.inl hy)
      · exact .inr (.inr (.inl ((left_enter hb).2 hy)))
      · exact .inr (.inr (.inr (pair_infix_cons.2 (.inr hy))))
      · exact .inr (.inr (.inr (pair_infix_cons.2 (.inl ⟨rfl, hhead⟩))))

variable {visited : OrderedSet α} {onPath : OrderedMap α Nat} {a : α}
variable {below : List (Frame α)} {found : List (List α)}

omit [Std.LawfulEqOrd α] in
/-- A node is left when nothing is pending: its open edges lead to nodes left before. -/
theorem leave (h : Exhausted g ⟨visited, onPath, ⟨a, []⟩ :: below, found⟩)
    (hinv : Inv g ⟨visited, onPath, ⟨a, []⟩ :: below, found⟩) :
    Exhausted g ⟨visited, onPath.erase a, below, found⟩ := by
  have hnodup : (a :: below.map (·.node)).Nodup := hinv.nodup
  have hfresh : a ∉ below.map (·.node) := (List.nodup_cons.1 hnodup).1
  have hacc : Acc (fun y x => OpenEdge g found x y) a := by
    refine Acc.intro a fun y hy => ?_
    rcases h.edge _ List.mem_cons_self y hy.1 with hnone | ⟨c, hc, hclosing⟩ | hleft | hpath
    · exact absurd hnone List.not_mem_nil
    · exact absurd hclosing (hy.2 c hc)
    · exact h.acc y hleft
    · -- no node of the path comes after the innermost one
      rcases pair_infix_cons.1 hpath with ⟨rfl, hhead⟩ | hpath
      · exact absurd (List.mem_of_mem_head? hhead) hfresh
      · exact absurd (hpath.subset (by simp)) hfresh
  refine ⟨fun x hx => ?_, fun f hf y hy => ?_⟩
  · by_cases hxa : x = a
    · exact hxa ▸ hacc
    · exact h.acc x ⟨hx.1, fun hmem => hx.2 ((List.mem_cons.1 hmem).resolve_left hxa)⟩
  · rcases h.edge f (List.mem_cons_of_mem _ hf) y hy with hy | hy | hy | hy
    · exact .inl hy
    · exact .inr (.inl hy)
    · exact .inr (.inr (.inl ⟨hy.1, fun hmem => hy.2 (List.mem_cons_of_mem _ hmem)⟩))
    · rcases pair_infix_cons.1 hy with ⟨rfl, -⟩ | hy
      · exact .inr (.inr (.inl ⟨hinv.visited a List.mem_cons_self, hfresh⟩))
      · exact .inr (.inr (.inr hy))

end Exhausted

theorem Reachable.exhausted (h : Reachable g s) : Exhausted g s := by
  induction h with
  | start => exact ⟨fun a ha => absurd ha.1 (OrderedSet.not_mem_empty a), by simp⟩
  | root hs hpath ha hfresh ih =>
    exact .enter hfresh ih.acc fun f hf y hy => .inl (ih.edge f hf y hy)
  | step hs ht ih =>
    have hinv := hs.inv
    cases ht with
    | leave => exact ih.leave hinv
    | @close visited onPath a b pending below found start hpos =>
      refine ih.advance (fun c hc => List.mem_cons_of_mem _ hc) (.inl ⟨_, List.mem_cons_self, ?_⟩)
      exact pair_suffix_concat.2 ⟨hinv.getLast?_cut hpos, rfl⟩
    | @skip visited onPath a b pending below found hpos hb =>
      have hout := hinv.not_mem_of_get?_eq_none hpos
      exact ih.advance (fun c hc => hc) (.inr ⟨hb, hout⟩)
    | @descend visited onPath a b pending below found hpos hb =>
      refine .enter hb (acc_advance ih fun c hc => hc) fun f hf y hy => ?_
      refine (accounted_advance ih (fun c hc => hc) f hf y hy).imp_right fun ⟨hfa, hyb⟩ => ?_
      exact ⟨congrArg some hfa.symm, hyb⟩

end Cycle.Search

variable [Std.TransOrd α] [Std.LawfulEqOrd α]

theorem wellFounded_openEdge (g : Adjacency α) :
    WellFounded fun y x => OpenEdge g (cycles g) x y := by
  obtain ⟨hreach, hend, hroots⟩ := Cycle.Search.completed_spec g
  refine ⟨fun a => ?_⟩
  have hfound : ∀ x y, OpenEdge g (cycles g) x y →
      OpenEdge g (Cycle.Search.completed g).found x y :=
    fun x y hxy => ⟨hxy.1, fun c hc => hxy.2 c (List.mem_reverse.2 hc)⟩
  by_cases ha : a ∈ g.roots
  · have hleft : Cycle.Search.Left (Cycle.Search.completed g) a :=
      ⟨hroots a ha, by simp [Cycle.Search.nodes, hend]⟩
    exact Subrelation.accessible (fun {y x} hyx => hfound x y hyx) (hreach.exhausted.acc a hleft)
  · exact Acc.intro a fun y hy => absurd (Cycle.Search.mem_roots_of_mem_next hy.1) ha

theorem not_transGen_openEdge (g : Adjacency α) (a : α) :
    ¬ Relation.TransGen (OpenEdge g (cycles g)) a a := by
  intro h
  have hback := Relation.transGen_swap.2 h
  exact (wellFounded_openEdge g).transGen.asymmetric a a hback hback

omit [Ord α] [Std.TransOrd α] [Std.LawfulEqOrd α] in
theorem transGen_of_isChain {R : α → α → Prop} {a b : α} :
    ∀ {walk : List α}, walk ≠ [] → (a :: walk).IsChain R → walk.getLast? = some b →
      Relation.TransGen R a b
  | [_], _, hwalk, hlast => by
    cases hlast
    exact .single (List.isChain_pair.1 hwalk)
  | y :: z :: rest, _, hwalk, hlast => by
    obtain ⟨hay, hrest⟩ := List.isChain_cons_cons.1 hwalk
    rw [List.getLast?_cons_cons] at hlast
    exact .head hay (transGen_of_isChain (List.cons_ne_nil z rest) hrest hlast)

/-- Every closed walk contains the closing edge of a cycle found; without the closing edges of the
cycles found the graph is acyclic, and if none is found it is acyclic itself. -/
theorem exists_closing_edge_of_closed_walk (g : Adjacency α) :
    (∀ walk : List α, 2 ≤ walk.length → walk.head? = walk.getLast? →
      (walk.IsChain fun x y => y ∈ g.next x) →
        ∃ x y, [x, y] <:+: walk ∧ ∃ c ∈ cycles g, [x, y] <:+ c) ∧
      (∀ a, ¬ Relation.TransGen
        (fun x y => y ∈ g.next x ∧ ∀ c ∈ cycles g, ¬ [x, y] <:+ c) a a) ∧
      (cycles g = [] → ∀ a, ¬ Relation.TransGen (fun x y => y ∈ g.next x) a a) := by
  refine ⟨?walk, not_transGen_openEdge g, ?acyclic⟩
  case walk =>
    intro walk hlength hclosed hwalk
    by_contra hnone
    have hopen : walk.IsChain (OpenEdge g (cycles g)) := by
      refine List.isChain_iff_forall_rel_of_append_cons_cons.2 fun x y before after hsplit => ?_
      have hxy : [x, y] <:+: walk := ⟨before, after, by simp [hsplit]⟩
      refine ⟨List.isChain_iff_forall_rel_of_append_cons_cons.1 hwalk hsplit, fun c hc hxc => ?_⟩
      exact hnone ⟨x, y, hxy, c, hc, hxc⟩
    match walk, hlength with
    | a :: b :: rest, _ =>
      rw [List.head?_cons, List.getLast?_cons_cons] at hclosed
      exact not_transGen_openEdge g a
        (transGen_of_isChain (List.cons_ne_nil b rest) hopen hclosed.symm)
  case acyclic =>
    intro hnone a ha
    have hopen : ∀ x y, y ∈ g.next x → OpenEdge g (cycles g) x y :=
      fun x y hxy => ⟨hxy, by simp [hnone]⟩
    exact not_transGen_openEdge g a (Relation.TransGen.mono hopen a a ha)

/-- The cycle through 1, 3 and 2 is missed, but its last edge closes the cycle found. -/
theorem exists_closing_edge_of_missed_cycle :
    [1, 3, 2, 1] ∉ cycles (Adjacency.ofRows (.ofList [(1, [2, 3]), (2, [1]), (3, [2])])) ∧
      ∃ x y, [x, y] <:+: [1, 3, 2, 1] ∧
        ∃ c ∈ cycles (Adjacency.ofRows (.ofList [(1, [2, 3]), (2, [1]), (3, [2])])),
          [x, y] <:+ c :=
  ⟨by decide, (exists_closing_edge_of_closed_walk _).1 _ (by decide) rfl (by simp; decide)⟩

end CallAtlas
