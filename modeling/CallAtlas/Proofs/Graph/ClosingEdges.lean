import CallAtlas.Pipeline
import CallAtlas.Proofs.Graph.ElementaryCycles
/-!
# Every cycle found has a closing edge of its own

An edge is examined once. The edges of a cycle have been examined when it is found, its closing edge
last, and the others lead from a node of the path to the next one. So the closing edge of a cycle is
no edge of any other cycle found, no two of them are rotations of one another, and dropping
rotations drops nothing.
-/

namespace CallAtlas

variable {α : Type} [Ord α] [Std.TransOrd α]

namespace Cycle.Search

/-- The search has gone along an edge, or has found that it leads to a visited node. -/
def Examined (s : Search α) (x y : α) : Prop :=
  x ∈ s.visited ∧ ∀ f ∈ s.path, f.node = x → y ∉ f.pending

/-- How the cycles found so far relate to the path and to one another. -/
structure Closings (s : Search α) : Prop where
  examined_path : ∀ x y, [y, x] <:+: s.nodes → Examined s x y
  examined_found : ∀ c ∈ s.found, ∀ x y, [x, y] <:+: c → Examined s x y
  off_path : ∀ c ∈ s.found, ∀ x y, [x, y] <:+ c → ¬ [y, x] <:+: s.nodes
  apart : s.found.Pairwise fun c d => ∀ x y,
    ([x, y] <:+ c → ¬ [x, y] <:+: d) ∧ ([x, y] <:+ d → ¬ [x, y] <:+: c)

variable [Std.LawfulEqOrd α] {g : Adjacency α} {s t : Search α}

theorem Examined.enter {x y b : α} (h : Examined s x y) (hb : b ∉ s.visited) :
    Examined (s.enter g b) x y := by
  obtain ⟨hx, hpending⟩ := h
  refine ⟨OrderedSet.mem_insert.2 (.inr hx), fun f hf hfx => ?_⟩
  rcases List.mem_cons.1 hf with rfl | hf
  · have hbx : b = x := hfx
    exact absurd (hbx ▸ hx) hb
  · exact hpending f hf hfx

omit [Std.TransOrd α] [Std.LawfulEqOrd α] in
theorem Examined.advance {visited : OrderedSet α} {onPath : OrderedMap α Nat} {a b x y : α}
    {pending : List α} {below : List (Frame α)} {found found' : List (List α)}
    (h : Examined ⟨visited, onPath, ⟨a, b :: pending⟩ :: below, found⟩ x y) :
    Examined (⟨visited, onPath, ⟨a, pending⟩ :: below, found'⟩ : Search α) x y := by
  refine ⟨h.1, fun f hf hfx => ?_⟩
  rcases List.mem_cons.1 hf with rfl | hf
  · exact fun hy => h.2 _ List.mem_cons_self hfx (List.mem_cons_of_mem _ hy)
  · exact h.2 f (List.mem_cons_of_mem _ hf) hfx

section Next
variable {visited : OrderedSet α} {onPath : OrderedMap α Nat} {a b : α} {pending : List α}
variable {below : List (Frame α)} {found found' : List (List α)}

omit [Std.TransOrd α] [Std.LawfulEqOrd α] in
theorem not_examined_next :
    ¬ Examined (⟨visited, onPath, ⟨a, b :: pending⟩ :: below, found⟩ : Search α) a b :=
  fun hex => hex.2 _ List.mem_cons_self rfl List.mem_cons_self

/-- The next edge of the innermost node is examined once it is no longer pending. -/
theorem Inv.examined_next (h : Inv g ⟨visited, onPath, ⟨a, b :: pending⟩ :: below, found⟩) :
    Examined (⟨visited, onPath, ⟨a, pending⟩ :: below, found'⟩ : Search α) a b := by
  have hsuffix : b :: pending <:+ orderedNext g a := h.pending _ List.mem_cons_self
  have hdistinct : (b :: pending).Nodup := (nodup_orderedNext a).sublist hsuffix.sublist
  have hnodup : (a :: below.map (·.node)).Nodup := h.nodup
  refine ⟨h.visited a List.mem_cons_self, fun f hf hfa => ?_⟩
  rcases List.mem_cons.1 hf with rfl | hf
  · exact (List.nodup_cons.1 hdistinct).1
  · exact absurd (List.mem_map.2 ⟨f, hf, hfa⟩) (List.nodup_cons.1 hnodup).1

end Next

namespace Closings

theorem enter (h : Closings s) {b : α} (hb : b ∉ s.visited)
    (hnext : ∀ a ∈ s.nodes.head?, Examined s a b ∧
      ∀ c ∈ s.found, ¬ [a, b] <:+ c) : Closings (s.enter g b) where
  examined_path := by
    intro x y hxy
    rcases pair_infix_cons.1 hxy with ⟨rfl, hx⟩ | hold
    · exact (hnext x hx).1.enter hb
    · exact (h.examined_path x y hold).enter hb
  examined_found := fun c hc x y hxy => (h.examined_found c hc x y hxy).enter hb
  off_path := by
    intro c hc x y hxy hpath
    rcases pair_infix_cons.1 hpath with ⟨rfl, hx⟩ | hold
    · exact (hnext x hx).2 c hc hxy
    · exact h.off_path c hc x y hxy hold
  apart := h.apart

variable {visited : OrderedSet α} {onPath : OrderedMap α Nat} {a b : α} {pending : List α}
variable {below : List (Frame α)} {found : List (List α)}

omit [Std.TransOrd α] [Std.LawfulEqOrd α] in
theorem advance (h : Closings ⟨visited, onPath, ⟨a, b :: pending⟩ :: below, found⟩) :
    Closings (⟨visited, onPath, ⟨a, pending⟩ :: below, found⟩ : Search α) where
  examined_path := fun x y hxy => (h.examined_path x y hxy).advance
  examined_found := fun c hc x y hxy => (h.examined_found c hc x y hxy).advance
  off_path := h.off_path
  apart := h.apart

omit [Std.TransOrd α] [Std.LawfulEqOrd α] in
theorem leave (h : Closings ⟨visited, onPath, ⟨a, []⟩ :: below, found⟩) :
    Closings (⟨visited, onPath.erase a, below, found⟩ : Search α) := by
  have hpath : ∀ x y, [y, x] <:+: below.map (·.node) → [y, x] <:+: a :: below.map (·.node) :=
    fun x y hxy => hxy.trans (List.suffix_cons a _).isInfix
  exact {
    examined_path := fun x y hxy =>
      have hex := h.examined_path x y (hpath x y hxy)
      ⟨hex.1, fun f hf => hex.2 f (List.mem_cons_of_mem _ hf)⟩
    examined_found := fun c hc x y hxy =>
      have hex := h.examined_found c hc x y hxy
      ⟨hex.1, fun f hf => hex.2 f (List.mem_cons_of_mem _ hf)⟩
    off_path := fun c hc x y hxy hold => h.off_path c hc x y hxy (hpath x y hold)
    apart := h.apart }

theorem close {start : Nat} (h : Closings ⟨visited, onPath, ⟨a, b :: pending⟩ :: below, found⟩)
    (hinv : Inv g ⟨visited, onPath, ⟨a, b :: pending⟩ :: below, found⟩)
    (hpos : onPath.get? b = some start) :
    Closings (⟨visited, onPath, ⟨a, pending⟩ :: below,
      ((a :: below.map (·.node)).reverse.drop start ++ [b]) :: found⟩ : Search α) := by
  have hlast := hinv.getLast?_cut hpos
  -- the edges of the cut are the closing edge and edges of the path
  have hclosing : ∀ x y, [x, y] <:+ (a :: below.map (·.node)).reverse.drop start ++ [b] →
      x = a ∧ y = b := by
    intro x y hxy
    obtain ⟨hx, rfl⟩ := pair_suffix_concat.1 hxy
    exact ⟨Option.some.inj (hx.symm.trans hlast), rfl⟩
  have hedge : ∀ x y, [x, y] <:+: (a :: below.map (·.node)).reverse.drop start ++ [b] →
      x = a ∧ y = b ∨ [y, x] <:+: a :: below.map (·.node) := by
    intro x y hxy
    rcases pair_infix_concat.1 hxy with ⟨hx, rfl⟩ | hcut
    · exact .inl ⟨Option.some.inj (hx.symm.trans hlast), rfl⟩
    · exact .inr (List.reverse_infix.1 (hcut.trans (List.drop_suffix _ _).isInfix))
  have hnew : ∀ c ∈ found, ¬ [a, b] <:+: c :=
    fun c hc hab => not_examined_next (h.examined_found c hc a b hab)
  refine ⟨fun x y hxy => (h.examined_path x y hxy).advance, ?_, ?_, ?_⟩
  · intro c hc x y hxy
    rcases List.mem_cons.1 hc with rfl | hc
    · rcases hedge x y hxy with ⟨rfl, rfl⟩ | hpath
      · exact hinv.examined_next
      · exact (h.examined_path x y hpath).advance
    · exact (h.examined_found c hc x y hxy).advance
  · intro c hc x y hxy hpath
    rcases List.mem_cons.1 hc with rfl | hc
    · obtain ⟨rfl, rfl⟩ := hclosing x y hxy
      exact not_examined_next (h.examined_path x y hpath)
    · exact h.off_path c hc x y hxy hpath
  · refine List.pairwise_cons.2 ⟨fun c hc x y => ⟨fun hxy hold => ?_, fun hxy hcut => ?_⟩, h.apart⟩
    · obtain ⟨rfl, rfl⟩ := hclosing x y hxy
      exact hnew c hc hold
    · rcases hedge x y hcut with ⟨rfl, rfl⟩ | hpath
      · exact hnew c hc hxy.isInfix
      · exact h.off_path c hc x y hxy hpath

end Closings

theorem Reachable.closings (h : Reachable g s) : Closings s := by
  induction h with
  | start =>
    exact ⟨by simp [nodes], by simp, by simp, List.Pairwise.nil⟩
  | root hs hpath ha hfresh ih =>
    refine ih.enter hfresh fun x hx => ?_
    simp [nodes, hpath] at hx
  | step hs ht ih =>
    cases ht with
    | leave => exact ih.leave
    | close hpos => exact ih.close hs.inv hpos
    | skip hpos hb => exact ih.advance
    | @descend visited onPath a b pending below found hpos hb =>
      refine ih.advance.enter hb fun x hx => ?_
      cases hx
      exact ⟨hs.inv.examined_next,
        fun c hc hab => not_examined_next (ih.examined_found c hc a b hab.isInfix)⟩

end Cycle.Search

variable [Std.LawfulEqOrd α]

/-- The closing edge of a cycle found is no edge of another one. -/
theorem cycles_apart (g : Adjacency α) : (cycles g).Pairwise fun c d => ∀ x y,
    ([x, y] <:+ c → ¬ [x, y] <:+: d) ∧ ([x, y] <:+ d → ¬ [x, y] <:+: c) := by
  have hapart := (Cycle.Search.completed_spec g).1.closings.apart
  rw [Cycle.Search.cycles_eq, List.pairwise_reverse]
  exact hapart.imp fun h x y => (h x y).symm

omit [Std.TransOrd α] [Std.LawfulEqOrd α] in
theorem ElementaryCycle.exists_closing_edge {g : Adjacency α} {c : List α}
    (h : ElementaryCycle g c) : ∃ x y, [x, y] <:+ c := by
  have hlength : (c.drop (c.length - 2)).length = 2 := by
    have := h.two_le_length
    rw [List.length_drop]
    omega
  obtain ⟨x, y, hxy⟩ := List.length_eq_two.1 hlength
  exact ⟨x, y, hxy ▸ List.drop_suffix _ c⟩

theorem cycles_pairwise_ne_edges (g : Adjacency α) : (cycles g).Pairwise fun c d =>
    ∃ x y, [x, y] <:+: c ∧ ¬ [x, y] <:+: d := by
  refine (cycles_apart g).imp_of_mem fun {c d} hc _ hcd => ?_
  obtain ⟨x, y, hxy⟩ := (elementaryCycle_of_mem_cycles hc).exists_closing_edge
  exact ⟨x, y, hxy.isInfix, (hcd x y).1 hxy⟩

theorem cycles_pairwise_canonicalRotation_ne (g : Adjacency α) :
    (cycles g).Pairwise fun c d => canonicalRotation c ≠ canonicalRotation d := by
  refine (cycles_pairwise_ne_edges g).imp_of_mem fun {c d} hc hd hcd heq => ?_
  have hec := elementaryCycle_of_mem_cycles hc
  have hed := elementaryCycle_of_mem_cycles hd
  obtain ⟨x, y, hxc, hxd⟩ := hcd
  rw [← pair_infix_canonicalRotation hec.two_le_length hec.closed, heq,
    pair_infix_canonicalRotation hed.two_le_length hed.closed] at hxc
  exact hxd hxc

theorem dedupRotations_eq_self [DecidableEq α] (g : Adjacency α) :
    dedupRotations (cycles g) = cycles g :=
  dedupAfter_eq_self (fun _ _ => List.not_mem_nil) (cycles_pairwise_canonicalRotation_ne g)

/-- No two cycles found share their closing edge or are rotations of one another, so that dropping
rotations changes nothing. -/
theorem cycles_pairwise_not_rotated [DecidableEq α] (g : Adjacency α) :
    ((cycles g).Pairwise fun c d => ∀ x y, [x, y] <:+ c → ¬ [x, y] <:+ d) ∧
      ((cycles g).Pairwise fun c d => ¬ c.dropLast.IsRotated d.dropLast) ∧
      dedupRotations (cycles g) = cycles g ∧
      ∀ G : NameGraph, detectCycles G true = detectCycles G false := by
  refine ⟨?closing, ?rotated, dedupRotations_eq_self g, fun G => dedupRotations_eq_self _⟩
  case closing =>
    exact (cycles_apart g).imp fun hcd x y hc hd => (hcd x y).1 hc hd.isInfix
  case rotated =>
    refine (cycles_pairwise_ne_edges g).imp_of_mem fun {c d} hc hd hcd hrot => ?_
    have hec := elementaryCycle_of_mem_cycles hc
    have hed := elementaryCycle_of_mem_cycles hd
    obtain ⟨x, y, hxc, hxd⟩ := hcd
    exact hxd (pair_infix_of_isRotated ⟨hec.two_le_length, hec.closed⟩
      ⟨hed.two_le_length, hed.closed⟩ hrot hxc)

/-- Two cycles through the same pair of nodes, and a third one that is missed. -/
theorem cycles_not_rotated_shared :
    cycles (Adjacency.ofRows (.ofList [(1, [2, 3]), (2, [1]), (3, [2, 1])])) =
        [[1, 2, 1], [1, 3, 1]] ∧
      dedupRotations (cycles (Adjacency.ofRows (.ofList [(1, [2, 3]), (2, [1]), (3, [2, 1])]))) =
        cycles (Adjacency.ofRows (.ofList [(1, [2, 3]), (2, [1]), (3, [2, 1])])) :=
  ⟨by decide, (cycles_pairwise_not_rotated _).2.2.1⟩

end CallAtlas
