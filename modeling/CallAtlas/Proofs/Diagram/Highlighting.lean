import CallAtlas.Diagram.Drawing
import CallAtlas.Proofs.Diagram.Numbering
import CallAtlas.Proofs.Graph.Rotations
import CallAtlas.Proofs.Pipeline.Documents
/-!
# Dropping rotations changes no diagram

A diagram marks the edges along cycles, and knows nothing else of a cycle. A rotation has the edges of
the cycle it was dropped for, its closing edge included, so that the same edges are marked with it and
without it.
-/

namespace CallAtlas

section Edges
variable {α : Type} [Ord α] [Std.TransOrd α] [Std.LawfulEqOrd α] [DecidableEq α]
variable {cs ds : List (List α)} {x y : α}

omit [Std.TransOrd α] [Std.LawfulEqOrd α] in
/-- An edge along a closed path is one along a path that is kept. -/
theorem exists_pair_infix_dedupRotations
    (hclosed : ∀ c ∈ cs, 2 ≤ c.length ∧ c.head? = c.getLast?) :
    (∃ c ∈ dedupRotations cs, [x, y] <:+: c) ↔ ∃ c ∈ cs, [x, y] <:+: c := by
  have hsub := (pairwise_dedupRotations cs).1
  constructor
  · rintro ⟨c, hc, hxy⟩
    exact ⟨c, hsub.subset hc, hxy⟩
  · rintro ⟨c, hc, hxy⟩
    obtain ⟨d, hd, heq⟩ := exists_mem_dedupRotations hc
    obtain ⟨hlength, hends⟩ := hclosed c hc
    obtain ⟨hlength', hends'⟩ := hclosed d (hsub.subset hd)
    refine ⟨d, hd, ?_⟩
    rw [← pair_infix_canonicalRotation hlength' hends', heq,
      pair_infix_canonicalRotation hlength hends]
    exact hxy

theorem cycleEdges_dedupRotations
    (hclosed : ∀ c ∈ cs, 2 ≤ c.length ∧ c.head? = c.getLast?) :
    cycleEdges (dedupRotations cs) = cycleEdges cs := by
  apply Digraph.edges_ext
  rintro ⟨x, y⟩
  exact mem_cycleEdges_iff.trans
    ((exists_pair_infix_dedupRotations hclosed).trans mem_cycleEdges_iff.symm)

end Edges

namespace Diagram

/-- A list of cycles that is accepted and the list without rotations mark the same edges, and have the
same diagrams in every language. -/
theorem draw_dedupRotations {cs : List (List String)} (hvalid : CycleList.flaw? cs = none) :
    cycleEdges (dedupRotations cs) = cycleEdges cs ∧
      ∀ (format : Format) (calls : Digraph String) (imports : Option (Digraph String)),
        draw format calls imports (dedupRotations cs) = draw format calls imports cs := by
  have hedges : cycleEdges (dedupRotations cs) = cycleEdges cs :=
    cycleEdges_dedupRotations ((CycleList.flawFrom_eq_none_iff 0).1 hvalid)
  refine ⟨hedges, fun format calls imports => ?_⟩
  unfold draw
  rw [hedges]

/-- A walk that comes by `b` twice on its way is dropped for the one that starts there. -/
theorem draw_dedupRotations_knots :
    let cs := [["b", "a", "b", "c", "b"], ["x", "x"], ["a", "b", "c", "b", "a"], ["x", "x"]]
    CycleList.flaw? cs = none ∧
      dedupRotations cs = [["b", "a", "b", "c", "b"], ["x", "x"]] ∧
      cycleEdges (dedupRotations cs) = cycleEdges cs ∧
      cycleEdges cs = [("a", "b"), ("b", "a"), ("b", "c"), ("c", "b"), ("x", "x")] ∧
      ∀ format calls imports,
        draw format calls imports (dedupRotations cs) = draw format calls imports cs := by
  intro cs
  have hvalid : CycleList.flaw? cs = none := by decide +kernel
  obtain ⟨hedges, hdraw⟩ := draw_dedupRotations hvalid
  exact ⟨hvalid, by decide +kernel, hedges, by decide +kernel, hdraw⟩

end Diagram

end CallAtlas
