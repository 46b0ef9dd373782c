import CallAtlas.Survey.Aggregation
import Mathlib.Data.List.Pairwise
/-!
# The order of reports

What reports add up to does not depend on the order in which they arrive, as long as no two of them
are about the same path. Paths are the same if their components are.
-/

namespace CallAtlas

theorem Component.eq_of_rank_eq_of_name_eq {a b : Component} (hrank : a.rank = b.rank)
    (hname : a.name = b.name) : a = b := by
  cases a <;> cases b <;> simp_all [Component.rank, Component.name]

instance : Std.LawfulEqOrd Component where
  eq_of_compare {a b} h := by
    obtain ⟨hrank, hname⟩ := compareLex_eq_eq.1 h
    apply Component.eq_of_rank_eq_of_name_eq
    · exact Std.LawfulEqOrd.eq_of_compare hrank
    · exact Std.LawfulEqOrd.eq_of_compare hname

theorem Path.compare_eq_iff {p q : Path} : compare p q = .eq ↔ p.components = q.components :=
  Std.LawfulEqOrd.compare_eq_iff_eq (α := List Component)

theorem Path.isLE_trans (p q r : Path) (hpq : (compare p q).isLE = true)
    (hqr : (compare q r).isLE = true) : (compare p r).isLE = true :=
  Std.TransCmp.isLE_trans hpq hqr

theorem Path.isLE_total (p q : Path) : ((compare p q).isLE || (compare q p).isLE) = true := by
  cases h : compare p q <;> simp [Std.OrientedCmp.eq_swap (a := q), h]

namespace Survey

variable {rs ss : List Report}

/-- The reports are about different paths. -/
def DistinctPaths (rs : List Report) : Prop :=
  rs.Pairwise fun r s => r.path.components ≠ s.path.components

theorem DistinctPaths.eq_of_compare {r s : Report} (h : DistinctPaths rs) (hr : r ∈ rs)
    (hs : s ∈ rs) (heq : compare r.path s.path = .eq) : r = s := by
  have symmetric : Std.Symm fun r s : Report => r.path.components ≠ s.path.components :=
    ⟨fun _ _ => Ne.symm⟩
  by_contra hne
  exact List.Pairwise.forall h hr hs hne (Path.compare_eq_iff.1 heq)

theorem isLE_trans (r s u : Report) (hrs : (compare r.path s.path).isLE = true)
    (hsu : (compare s.path u.path).isLE = true) : (compare r.path u.path).isLE = true :=
  Path.isLE_trans _ _ _ hrs hsu

theorem isLE_total (r s : Report) :
    ((compare r.path s.path).isLE || (compare s.path r.path).isLE) = true :=
  Path.isLE_total _ _

/-- The reports in the order of their paths. -/
def inOrder (rs : List Report) : List Report :=
  rs.mergeSort fun r s => (compare r.path s.path).isLE

theorem inOrder_perm (rs : List Report) : (inOrder rs).Perm rs := List.mergeSort_perm _ _

theorem ascending_inOrder (rs : List Report) :
    (inOrder rs).Pairwise fun r s => (compare r.path s.path).isLE = true :=
  List.pairwise_mergeSort isLE_trans isLE_total rs

theorem DistinctPaths.inOrder_eq (h : DistinctPaths rs) (hperm : rs.Perm ss) :
    inOrder rs = inOrder ss := by
  apply List.Perm.eq_of_pairwise _ (ascending_inOrder rs) (ascending_inOrder ss)
  · exact (inOrder_perm rs).trans (hperm.trans (inOrder_perm ss).symm)
  · intro r s hr hs hrs hsr
    apply h.eq_of_compare
    · exact List.mem_mergeSort.1 hr
    · exact hperm.mem_iff.2 (List.mem_mergeSort.1 hs)
    · exact Std.OrientedCmp.isLE_antisymm hrs hsr

theorem Aggregation.ofReports_eq_of_perm (h : DistinctPaths rs) (hperm : rs.Perm ss) :
    ofReports rs = ofReports ss :=
  congrArg (List.foldl add {}) (h.inOrder_eq hperm)

end Survey

end CallAtlas
