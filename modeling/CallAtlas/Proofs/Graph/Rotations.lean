import CallAtlas.Proofs.Graph.ClosedPath
import CallAtlas.Proofs.Graph.Search
/-!
# Repeated cycles

Closed paths are rotations of one another if their open parts are. Two of them with one canonical
rotation are rotations of one another, and rotations have one canonical rotation if the smallest node
stands in them only once. So dropping rotations keeps the first path of each class and loses no class.
-/

namespace CallAtlas

open List (IsRotated)

variable {α : Type} [Ord α] {c d l m : List α} {a : α}

/-! ### Canonical rotations -/

/-- Nothing in the list is smaller. -/
def IsSmallest (a : α) (l : List α) : Prop := a ∈ l ∧ ∀ b ∈ l, (compare a b).isLE = true

omit [Ord α] in
theorem dropLast_closeUp (l : List α) : (closeUp l).dropLast = l := by
  cases l with
  | nil => rfl
  | cons a l => rw [closeUp_cons, List.dropLast_concat]

/-- Closed paths with one canonical rotation are rotations of one another. -/
theorem isRotated_of_canonicalRotation_eq (hc : 2 ≤ c.length) (hd : 2 ≤ d.length)
    (h : canonicalRotation c = canonicalRotation d) : IsRotated c.dropLast d.dropLast := by
  rw [canonicalRotation_eq hc, canonicalRotation_eq hd] at h
  have hopen : c.dropLast.rotate (smallestIndex c.dropLast) =
      d.dropLast.rotate (smallestIndex d.dropLast) := by
    rw [← dropLast_closeUp (c.dropLast.rotate _), h, dropLast_closeUp]
  have hturned : IsRotated c.dropLast (d.dropLast.rotate (smallestIndex d.dropLast)) := ⟨_, hopen⟩
  exact hturned.trans (IsRotated.forall d.dropLast _)

section Turned
variable [Std.TransOrd α]

theorem exists_isSmallest (hl : l ≠ []) :
    ∃ a, l[smallestIndex l]? = some a ∧ IsSmallest a l := by
  induction l with
  | nil => exact absurd rfl hl
  | cons a rest ih =>
    rw [smallestIndex]
    split
    · rename_i hall
      refine ⟨a, rfl, List.mem_cons_self, fun b hb => ?_⟩
      rcases List.mem_cons.1 hb with rfl | hb
      · exact Std.ReflCmp.isLE_rfl
      · exact List.all_eq_true.1 hall b hb
    · rename_i hall
      obtain ⟨b, hb, hgt⟩ : ∃ b ∈ rest, ¬ (compare a b).isLE = true := by
        simpa using hall
      obtain ⟨x, hx, hmem, hle⟩ := ih (List.ne_nil_of_mem hb)
      refine ⟨x, hx, List.mem_cons_of_mem a hmem, fun y hy => ?_⟩
      rcases List.mem_cons.1 hy with rfl | hy
      · -- the first node is greater than `b`, which is not smaller than `x`
        have hba : (compare b y).isLE = true := by
          rw [show compare b y = (compare y b).swap from Std.OrientedCmp.eq_swap]
          cases hab : compare y b <;> simp [hab] at hgt ⊢
        exact Std.TransCmp.isLE_trans (hle b hb) hba
      · exact hle y hy

theorem head?_rotate_smallestIndex (hl : l ≠ []) :
    ∃ a, (l.rotate (smallestIndex l)).head? = some a ∧ IsSmallest a l := by
  obtain ⟨a, ha, hsmallest⟩ := exists_isSmallest hl
  refine ⟨a, ?_, hsmallest⟩
  rw [List.head?_rotate (List.getElem?_eq_some_iff.1 ha).1, ha]

variable [Std.LawfulEqOrd α]

/-- Rotations of a closed path in which the smallest node stands once have one canonical rotation. -/
theorem canonicalRotation_eq_of_isRotated [DecidableEq α] (hc : 2 ≤ c.length) (hd : 2 ≤ d.length)
    (h : IsRotated c.dropLast d.dropLast)
    (hone : ∀ a, IsSmallest a c.dropLast → c.dropLast.count a = 1) :
    canonicalRotation c = canonicalRotation d := by
  have hne : ∀ {e : List α}, 2 ≤ e.length → e.dropLast ≠ [] := by
    intro e he hnil
    have hlength : e.dropLast.length = 0 := by rw [hnil]; rfl
    rw [List.length_dropLast] at hlength
    omega
  obtain ⟨a, ha, hsmallest⟩ := head?_rotate_smallestIndex (hne hc)
  obtain ⟨b, hb, hmem, hle⟩ := head?_rotate_smallestIndex (hne hd)
  -- the smallest nodes of both are the same
  obtain rfl : a = b := by
    have hab := hsmallest.2 b (h.perm.mem_iff.2 hmem)
    have hba := hle a (h.perm.mem_iff.1 hsmallest.1)
    exact Std.LawfulEqCmp.compare_eq_iff_eq.1 (Std.OrientedCmp.isLE_antisymm hab hba)
  rw [canonicalRotation_eq hc, canonicalRotation_eq hd]
  congr 1
  apply eq_of_isRotated_of_head? _ ha hb
  · rw [(List.rotate_perm _ _).count_eq]
    exact hone a hsmallest
  · exact ((IsRotated.forall c.dropLast _).trans h).trans (IsRotated.forall d.dropLast _).symm

end Turned

/-! ### Dropping rotations -/

section Dropping
variable [DecidableEq α] {cs : List (List α)}

theorem dedupAfter_concat (seen cs : List (List α)) (c : List α) :
    dedupAfter seen (cs ++ [c]) =
      if canonicalRotation c ∈ cs.map canonicalRotation ++ seen then dedupAfter seen cs
      else dedupAfter seen cs ++ [c] := by
  induction cs generalizing seen with
  | nil => rfl
  | cons d cs ih =>
    rw [List.cons_append, dedupAfter, dedupAfter]
    by_cases hd : canonicalRotation d ∈ seen
    · have hiff : canonicalRotation c ∈ (d :: cs).map canonicalRotation ++ seen ↔
          canonicalRotation c ∈ cs.map canonicalRotation ++ seen := by
        rw [List.map_cons, List.cons_append, List.mem_cons, or_iff_right_of_imp]
        intro heq
        exact List.mem_append_right _ (heq ▸ hd)
      simp only [if_pos hd, ih, hiff]
    · have hiff : canonicalRotation c ∈ (d :: cs).map canonicalRotation ++ seen ↔
          canonicalRotation c ∈ cs.map canonicalRotation ++ canonicalRotation d :: seen :=
        List.perm_middle.symm.mem_iff
      simp only [if_neg hd, ih, hiff]
      split <;> rfl

theorem dedupRotations_concat (cs : List (List α)) (c : List α) :
    dedupRotations (cs ++ [c]) =
      if canonicalRotation c ∈ cs.map canonicalRotation then dedupRotations cs
      else dedupRotations cs ++ [c] := by
  rw [dedupRotations, dedupAfter_concat, List.append_nil]
  rfl

theorem pairwise_dedupRotations (cs : List (List α)) :
    (dedupRotations cs).Sublist cs ∧
      (dedupRotations cs).Pairwise fun c d => canonicalRotation c ≠ canonicalRotation d := by
  induction cs using List.reverseRecOn with
  | nil => exact ⟨.slnil, .nil⟩
  | append_singleton cs c ih =>
    obtain ⟨hsub, hne⟩ := ih
    rw [dedupRotations_concat]
    split
    · exact ⟨hsub.trans (List.sublist_append_left cs [c]), hne⟩
    · rename_i hnew
      refine ⟨hsub.append (.refl [c]), List.pairwise_append.2 ⟨hne, List.pairwise_singleton _ c, ?_⟩⟩
      intro d hd e he heq
      obtain rfl := List.mem_singleton.1 he
      exact hnew (List.mem_map.2 ⟨d, hsub.subset hd, heq⟩)

/-- The positions of the paths that are kept: every other path has the canonical rotation of one that
is kept before it. -/
structure Kept (cs ds : List (List α)) (kept : List Nat) : Prop where
  ascending : kept.Pairwise (· < ·)
  getElem?_eq : kept.map (cs[·]?) = ds.map some
  dropped : ∀ i c, cs[i]? = some c → i ∉ kept → ∃ j ∈ kept, j < i ∧
    ∃ d, cs[j]? = some d ∧ canonicalRotation d = canonicalRotation c

namespace Kept

variable {ds : List (List α)} {kept : List Nat} (h : Kept cs ds kept)
include h

omit [DecidableEq α] in
theorem lt_length {i : Nat} (hi : i ∈ kept) : i < cs.length := by
  have hmem : cs[i]? ∈ ds.map some := h.getElem?_eq ▸ List.mem_map.2 ⟨i, hi, rfl⟩
  obtain ⟨c, -, hc⟩ := List.mem_map.1 hmem
  exact (List.getElem?_eq_some_iff.1 hc.symm).1

omit [DecidableEq α] in
theorem getElem?_concat {i : Nat} (hi : i ∈ kept) (c : List α) : (cs ++ [c])[i]? = cs[i]? :=
  List.getElem?_append_left (h.lt_length hi)

omit [DecidableEq α] in
theorem dropped_concat {c d : List α} {i : Nat} (hi : cs[i]? = some d) (hkept : i ∉ kept) :
    ∃ j ∈ kept, j < i ∧ ∃ e, (cs ++ [c])[j]? = some e ∧
      canonicalRotation e = canonicalRotation d := by
  obtain ⟨j, hj, hlt, e, he, heq⟩ := h.dropped i d hi hkept
  exact ⟨j, hj, hlt, e, (h.getElem?_concat hj c).trans he, heq⟩

omit [DecidableEq α] in
theorem concat_of_mem {c : List α} (hold : canonicalRotation c ∈ cs.map canonicalRotation) :
    Kept (cs ++ [c]) ds kept where
  ascending := h.ascending
  getElem?_eq := by
    rw [← h.getElem?_eq]
    exact List.map_congr_left fun i hi => h.getElem?_concat hi c
  dropped := by
    intro i d hi hkept
    rcases getElem?_concat_eq_some.1 hi with hi | ⟨rfl, rfl⟩
    · exact h.dropped_concat hi hkept
    · obtain ⟨e, he, heq⟩ := List.mem_map.1 hold
      obtain ⟨i, hi⟩ := List.mem_iff_getElem?.1 he
      have hlt : i < cs.length := (List.getElem?_eq_some_iff.1 hi).1
      by_cases hkept : i ∈ kept
      · exact ⟨i, hkept, hlt, e, (h.getElem?_concat hkept d).trans hi, heq⟩
      · obtain ⟨j, hj, hji, e', he', heq'⟩ := h.dropped_concat (c := d) hi hkept
        exact ⟨j, hj, hji.trans hlt, e', he', heq'.trans heq⟩

omit [DecidableEq α] in
theorem concat_of_not_mem (c : List α) :
    Kept (cs ++ [c]) (ds ++ [c]) (kept ++ [cs.length]) where
  ascending := by
    refine List.pairwise_append.2 ⟨h.ascending, List.pairwise_singleton _ _, fun i hi j hj => ?_⟩
    obtain rfl := List.mem_singleton.1 hj
    exact h.lt_length hi
  getElem?_eq := by
    have hold : kept.map ((cs ++ [c])[·]?) = ds.map some :=
      (List.map_congr_left fun i hi => h.getElem?_concat hi c).trans h.getElem?_eq
    rw [List.map_append, hold, List.map_append, List.map_singleton, List.getElem?_concat_length]
    rfl
  dropped := by
    intro i d hi hkept
    rw [List.mem_append, List.mem_singleton, not_or] at hkept
    rcases getElem?_concat_eq_some.1 hi with hi | ⟨-, rfl⟩
    · obtain ⟨j, hj, hrest⟩ := h.dropped_concat hi hkept.1
      exact ⟨j, List.mem_append_left _ hj, hrest⟩
    · exact absurd rfl hkept.2

end Kept

theorem exists_kept (cs : List (List α)) : ∃ kept, Kept cs (dedupRotations cs) kept := by
  induction cs using List.reverseRecOn with
  | nil => exact ⟨[], .nil, rfl, fun i c hi => by simp at hi⟩
  | append_singleton cs c ih =>
    obtain ⟨kept, hkept⟩ := ih
    rw [dedupRotations_concat]
    split
    · rename_i hold
      exact ⟨kept, hkept.concat_of_mem hold⟩
    · exact ⟨_, hkept.concat_of_not_mem c⟩

/-- Every path has the canonical rotation of one that is kept. -/
theorem exists_mem_dedupRotations {c : List α} (hc : c ∈ cs) :
    ∃ d ∈ dedupRotations cs, canonicalRotation d = canonicalRotation c := by
  obtain ⟨kept, hkept⟩ := exists_kept cs
  have hmem : ∀ {i d}, i ∈ kept → cs[i]? = some d → d ∈ dedupRotations cs := by
    intro i d hi hd
    have hlisted : some d ∈ (dedupRotations cs).map some :=
      hkept.getElem?_eq ▸ List.mem_map.2 ⟨i, hi, hd⟩
    simpa using hlisted
  obtain ⟨i, hi⟩ := List.mem_iff_getElem?.1 hc
  by_cases hki : i ∈ kept
  · exact ⟨c, hmem hki hi, rfl⟩
  · obtain ⟨j, hj, -, d, hd, heq⟩ := hkept.dropped i c hi hki
    exact ⟨d, hmem hj hd, heq⟩

/-- What is kept of closed paths stands in the list in the same order, and each path that is dropped is
a rotation of one that is kept before it. No two that are kept are rotations of one another, if the
smallest node stands once in the open part of each. Dropping rotations once more drops nothing. -/
theorem dedupRotations_keeps_first [Std.TransOrd α] [Std.LawfulEqOrd α]
    (hclosed : ∀ c ∈ cs, 2 ≤ c.length ∧ c.head? = c.getLast?) :
    (∃ kept : List Nat, kept.Pairwise (· < ·) ∧
      kept.map (cs[·]?) = (dedupRotations cs).map some ∧
      ∀ i c, cs[i]? = some c → i ∉ kept → ∃ j ∈ kept, j < i ∧
        ∃ d, cs[j]? = some d ∧ IsRotated d.dropLast c.dropLast) ∧
    ((∀ c ∈ cs, ∀ a, IsSmallest a c.dropLast → c.dropLast.count a = 1) →
      (dedupRotations cs).Pairwise fun c d => ¬ IsRotated c.dropLast d.dropLast) ∧
    dedupRotations (dedupRotations cs) = dedupRotations cs := by
  have hlength : ∀ {c}, c ∈ cs → 2 ≤ c.length := fun hc => (hclosed _ hc).1
  obtain ⟨hsub, hne⟩ := pairwise_dedupRotations cs
  refine ⟨?kept, fun hone => ?_, dedupAfter_eq_self (fun _ _ => List.not_mem_nil) hne⟩
  case kept =>
    obtain ⟨kept, hkept⟩ := exists_kept cs
    refine ⟨kept, hkept.ascending, hkept.getElem?_eq, fun i c hi hdropped => ?_⟩
    obtain ⟨j, hj, hlt, d, hd, heq⟩ := hkept.dropped i c hi hdropped
    have hmem := List.mem_of_getElem? hd
    refine ⟨j, hj, hlt, d, hd, ?_⟩
    exact isRotated_of_canonicalRotation_eq (hlength hmem) (hlength (List.mem_of_getElem? hi)) heq
  · refine hne.imp_of_mem fun {c d} hc hd hcd hrotated => hcd ?_
    have hc := hsub.subset hc
    have hd := hsub.subset hd
    exact canonicalRotation_eq_of_isRotated (hlength hc) (hlength hd) hrotated (hone c hc)

/-- Paths that pass a node twice, though not their smallest one. -/
theorem dedupRotations_keeps_first_repeated :
    let cs := [[2, 3, 2], [3, 2, 3], [1, 2, 3, 2, 1], [2, 3, 2, 1, 2]]
    (∀ c ∈ cs, 2 ≤ c.length ∧ c.head? = c.getLast?) ∧
      dedupRotations cs = [[2, 3, 2], [1, 2, 3, 2, 1]] ∧
      ((dedupRotations cs).Pairwise fun c d => ¬ IsRotated c.dropLast d.dropLast) ∧
      dedupRotations (dedupRotations cs) = dedupRotations cs := by
  intro cs
  have hclosed : ∀ c ∈ cs, 2 ≤ c.length ∧ c.head? = c.getLast? := by decide
  have hone : ∀ c ∈ cs, ∀ a ∈ c.dropLast,
      (∀ b ∈ c.dropLast, (compare a b).isLE = true) → c.dropLast.count a = 1 := by decide
  obtain ⟨-, hdistinct, hagain⟩ := dedupRotations_keeps_first hclosed
  exact ⟨hclosed, by decide, hdistinct fun c hc a ha => hone c hc a ha.1 ha.2, hagain⟩

-- these are rotations of one another, and their smallest node stands in them twice
example : dedupRotations [[1, 2, 1, 3, 1], [1, 3, 1, 2, 1]] = [[1, 2, 1, 3, 1], [1, 3, 1, 2, 1]] := by
  decide

end Dropping

end CallAtlas
