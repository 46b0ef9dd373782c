import CallAtlas.Proofs.Outline.Arena
import Mathlib.Data.List.Nodup
import Mathlib.Data.List.Infix
/-!
# Ancestors and preorder

The strict ancestors of a node, outermost first, and the nodes of an outline in preorder. In an
outline built by adding nodes, the ancestors of a child are those of its parent and the parent, and
the preorder lists every node exactly once.
-/

namespace CallAtlas

namespace Outline

/-- The node that a node is a child of; it has a smaller number. -/
def parent? (o : Outline) (n : Nat) : Option Nat :=
  (List.range n).find? fun p => n ∈ o.children p

theorem parent?_lt {o : Outline} {n p : Nat} (h : o.parent? n = some p) : p < n :=
  List.mem_range.1 (List.mem_of_find?_eq_some h)

theorem mem_children_of_parent? {o : Outline} {n p : Nat} (h : o.parent? n = some p) :
    n ∈ o.children p := by
  simpa using List.find?_some h

/-- The strict ancestors of a node, outermost first. -/
def ancestors (o : Outline) (n : Nat) : List Nat :=
  match _h : o.parent? n with
  | none => []
  | some p => o.ancestors p ++ [p]
termination_by n
decreasing_by exact parent?_lt _h

/-- The nodes from `n` on in preorder, down to a depth of `fuel`. -/
def preorderFrom (o : Outline) : (fuel n : Nat) → List Nat
  | 0, _ => []
  | fuel + 1, n => n :: (o.children n).flatMap (preorderFrom o fuel)

/-- A node and everything below it in preorder. -/
def subtree (o : Outline) (n : Nat) : List Nat := o.preorderFrom o.size n

def preorder (o : Outline) : List Nat := o.subtree 0

theorem ancestors_of_parent? {o : Outline} {n p : Nat} (h : o.parent? n = some p) :
    o.ancestors n = o.ancestors p ++ [p] := by
  rw [ancestors]
  split
  · rename_i hnone
    rw [h] at hnone
    cases hnone
  · rename_i q hq
    rw [h] at hq
    cases hq
    rfl

theorem ancestors_of_parent?_none {o : Outline} {n : Nat} (h : o.parent? n = none) :
    o.ancestors n = [] := by
  rw [ancestors]
  split
  · rfl
  · rename_i q hq
    rw [h] at hq
    cases hq

@[simp] theorem ancestors_zero (o : Outline) : o.ancestors 0 = [] :=
  ancestors_of_parent?_none rfl

theorem ancestors_isPrefix {o : Outline} {a n : Nat} (h : a ∈ o.ancestors n) :
    o.ancestors a ++ [a] <+: o.ancestors n := by
  induction n using Nat.strong_induction_on with
  | _ n ih =>
    cases hp : o.parent? n with
    | none => simp [ancestors_of_parent?_none hp] at h
    | some p =>
      rw [ancestors_of_parent? hp] at h ⊢
      rcases List.mem_append.1 h with h | h
      · exact (ih p (parent?_lt hp) h).trans (List.prefix_append _ _)
      · obtain rfl := List.mem_singleton.1 h
        exact List.prefix_refl _

theorem lt_of_mem_ancestors {o : Outline} {a n : Nat} (h : a ∈ o.ancestors n) : a < n := by
  induction n using Nat.strong_induction_on with
  | _ n ih =>
    cases hp : o.parent? n with
    | none => simp [ancestors_of_parent?_none hp] at h
    | some p =>
      have hlt := parent?_lt hp
      rw [ancestors_of_parent? hp] at h
      rcases List.mem_append.1 h with h | h
      · exact Nat.lt_trans (ih p hlt h) hlt
      · rwa [List.mem_singleton.1 h]

namespace WellNumbered

variable {o : Outline} (h : WellNumbered o)
include h

theorem parent?_eq_some {p c : Nat} (hc : c ∈ o.children p) : o.parent? c = some p := by
  cases hp : o.parent? c with
  | none =>
    have hnone := List.find?_eq_none.1 hp p (List.mem_range.2 (h.lt_child p c hc))
    simp [hc] at hnone
  | some q => rw [h.parent_unique q p c (mem_children_of_parent? hp) hc]

theorem ancestors_child {p c : Nat} (hc : c ∈ o.children p) :
    o.ancestors c = o.ancestors p ++ [p] :=
  ancestors_of_parent? (h.parent?_eq_some hc)

/-- Induction from the children of a node to the node. -/
theorem children_induction {P : Nat → Prop} (step : ∀ n, (∀ c ∈ o.children n, P c) → P n) (n : Nat) :
    P n := by
  induction hk : o.size - n using Nat.strong_induction_on generalizing n with
  | _ k ih =>
    refine step n fun c hc => ih (o.size - c) ?_ c rfl
    have hlt := h.lt_child n c hc
    have hsize := h.child_lt_size n c hc
    omega

theorem preorderFrom_eq {j k n : Nat} (hn : n < o.size) (hj : o.size - n ≤ j)
    (hk : o.size - n ≤ k) : o.preorderFrom j n = o.preorderFrom k n := by
  induction j generalizing k n with
  | zero => omega
  | succ j ih =>
    cases k with
    | zero => omega
    | succ k =>
      rw [preorderFrom, preorderFrom]
      congr 1
      refine List.flatMap_congr fun c hc => ?_
      have hlt := h.lt_child n c hc
      exact ih (h.child_lt_size n c hc) (by omega) (by omega)

theorem subtree_eq (n : Nat) : o.subtree n = n :: (o.children n).flatMap o.subtree := by
  have hpos := o.size_pos
  obtain ⟨k, hk⟩ : ∃ k, o.size = k + 1 := ⟨o.size - 1, by unfold size; omega⟩
  rw [subtree, hk, preorderFrom]
  congr 1
  refine List.flatMap_congr fun c hc => ?_
  have hlt := h.lt_child n c hc
  exact h.preorderFrom_eq (h.child_lt_size n c hc) (by omega) (Nat.sub_le _ _)

theorem mem_subtree_self (n : Nat) : n ∈ o.subtree n := by
  rw [h.subtree_eq]
  exact List.mem_cons_self

theorem mem_subtree_child {n m c : Nat} (hm : m ∈ o.subtree n) (hc : c ∈ o.children m) :
    c ∈ o.subtree n := by
  induction n using h.children_induction with
  | _ n ih =>
    rw [h.subtree_eq] at hm ⊢
    rcases List.mem_cons.1 hm with rfl | hm
    · exact List.mem_cons_of_mem _ (List.mem_flatMap.2 ⟨c, hc, h.mem_subtree_self c⟩)
    · obtain ⟨d, hd, hm⟩ := List.mem_flatMap.1 hm
      exact List.mem_cons_of_mem _ (List.mem_flatMap.2 ⟨d, hd, ih d hd hm⟩)

/-- A node stands below its ancestors. -/
theorem eq_or_mem_ancestors {n m : Nat} (hm : m ∈ o.subtree n) : m = n ∨ n ∈ o.ancestors m := by
  induction n using h.children_induction with
  | _ n ih =>
    rw [h.subtree_eq] at hm
    rcases List.mem_cons.1 hm with rfl | hm
    · exact .inl rfl
    · obtain ⟨c, hc, hm⟩ := List.mem_flatMap.1 hm
      have hanc := h.ancestors_child hc
      rcases ih c hc hm with rfl | hcm
      · exact .inr (by simp [hanc])
      · exact .inr ((ancestors_isPrefix hcm).subset (by simp [hanc]))

theorem nodup_subtree (n : Nat) : (o.subtree n).Nodup := by
  induction n using h.children_induction with
  | _ n ih =>
    rw [h.subtree_eq, List.nodup_cons]
    constructor
    · intro hmem
      obtain ⟨c, hc, hn⟩ := List.mem_flatMap.1 hmem
      have hlt := h.lt_child n c hc
      rcases h.eq_or_mem_ancestors hn with rfl | hn
      · exact Nat.lt_irrefl _ hlt
      · exact Nat.lt_asymm hlt (lt_of_mem_ancestors hn)
    · refine List.nodup_flatMap.2 ⟨ih, (h.ascending n).imp_of_mem fun {c d} hc hd hcd => ?_⟩
      -- the path from the root to a node of both subtrees would go through both children
      rintro m hmc hmd
      have hpath : ∀ e ∈ o.children n, m ∈ o.subtree e →
          o.ancestors n ++ [n] ++ [e] <+: o.ancestors m ++ [m] := by
        intro e he hme
        rw [← h.ancestors_child he]
        rcases h.eq_or_mem_ancestors hme with rfl | hem
        · exact List.prefix_refl _
        · exact (ancestors_isPrefix hem).trans (List.prefix_append _ _)
      have heq := List.prefix_of_prefix_length_le (hpath c hc hmc) (hpath d hd hmd) (by simp)
      have hcd' : c = d := by simpa using heq.eq_of_length (by simp)
      omega

theorem mem_preorder_iff {n : Nat} : n ∈ o.preorder ↔ n < o.size := by
  constructor
  · intro hn
    rcases h.eq_or_mem_ancestors hn with rfl | hn
    · exact o.size_pos
    · cases hp : o.parent? n with
      | none => simp [ancestors_of_parent?_none hp] at hn
      | some p => exact h.child_lt_size p n (mem_children_of_parent? hp)
  · intro hn
    induction n using Nat.strong_induction_on with
    | _ n ih =>
      rcases Nat.eq_zero_or_pos n with rfl | hpos
      · exact h.mem_subtree_self 0
      · obtain ⟨p, hp⟩ := h.exists_parent n hpos hn
        have hlt := h.lt_child p n hp
        exact h.mem_subtree_child (ih p hlt (Nat.lt_trans hlt hn)) hp

theorem nodup_preorder : o.preorder.Nodup := h.nodup_subtree 0

theorem length_preorder : o.preorder.length = o.size := by
  have hperm : o.preorder.Perm (List.range o.size) :=
    (List.perm_ext_iff_of_nodup h.nodup_preorder List.nodup_range).2 fun n => by
      rw [h.mem_preorder_iff, List.mem_range]
  rw [hperm.length_eq, List.length_range]

end WellNumbered

end Outline

end CallAtlas
