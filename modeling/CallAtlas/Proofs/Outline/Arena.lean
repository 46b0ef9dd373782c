import CallAtlas.Outline
/-!
# Outlines built by adding nodes

An outline is `Built` when it comes from the empty one by adding nodes below existing ones. Then it
is a tree: every node but the root is a child of exactly one node, which has a smaller number, and
stands among its children once.
-/

namespace CallAtlas

namespace Outline

/-- Outlines that come from adding nodes below existing ones. -/
inductive Built : Outline → Prop where
  | root : Built .root
  | push {o : Outline} {parent : Nat} {construct : Construct} (ho : Built o)
      (hparent : parent < o.size) : Built (o.push parent construct)

@[simp] theorem size_push (o : Outline) (parent : Nat) (construct : Construct) :
    (o.push parent construct).size = o.size + 1 := by
  simp [push, size]

theorem getElem?_nodes_push (o : Outline) (parent : Nat) (construct : Construct) (i : Nat) :
    (o.push parent construct).nodes[i]? =
      (if i = o.size then some ⟨construct, #[]⟩ else o.nodes[i]?).map fun n =>
        if parent = i then { n with children := n.children.push o.size } else n := by
  show ((o.nodes.push ⟨construct, #[]⟩).modify parent fun n =>
    { n with children := n.children.push o.size })[i]? = _
  rw [Array.getElem?_modify, Array.getElem?_push, size]
  by_cases h : parent = i
  · rw [if_pos h]
    simp only [if_pos h]
  · rw [if_neg h]
    simp only [if_neg h, Option.map_id']

theorem children_of_size_le {o : Outline} {i : Nat} (h : o.size ≤ i) : o.children i = [] := by
  rw [children, Array.getElem?_eq_none h]

theorem children_push {o : Outline} {parent : Nat} {construct : Construct} {i : Nat}
    (hparent : parent < o.size) :
    (o.push parent construct).children i =
      if i = parent then o.children i ++ [o.size] else o.children i := by
  rw [children, getElem?_nodes_push]
  by_cases h : i = o.size
  · have hne : parent ≠ i := by omega
    simp [h, Nat.ne_of_gt hparent, Nat.ne_of_lt hparent, children_of_size_le (Nat.le_refl _)]
  · rw [if_neg h, children]
    cases hi : o.nodes[i]? with
    | none =>
      have hle : o.size ≤ i := Array.getElem?_eq_none_iff.1 hi
      simp [show i ≠ parent by omega]
    | some n =>
      by_cases hip : i = parent
      · simp [hip]
      · simp [hip, Ne.symm hip]

/-- What holds of the numbers of the nodes of a tree. -/
structure WellNumbered (o : Outline) : Prop where
  lt_child : ∀ p, ∀ c ∈ o.children p, p < c
  child_lt_size : ∀ p, ∀ c ∈ o.children p, c < o.size
  parent_unique : ∀ p q c, c ∈ o.children p → c ∈ o.children q → p = q
  exists_parent : ∀ c, 0 < c → c < o.size → ∃ p, c ∈ o.children p
  ascending : ∀ p, (o.children p).Pairwise (· < ·)

theorem children_root (i : Nat) : root.children i = [] := by
  cases i with
  | zero => rfl
  | succ i => exact children_of_size_le (Nat.succ_le_succ (Nat.zero_le i))

theorem wellNumbered_root : WellNumbered .root where
  lt_child := by simp [children_root]
  child_lt_size := by simp [children_root]
  parent_unique := by simp [children_root]
  exists_parent := by
    intro c hpos hlt
    have hsize : root.size = 1 := rfl
    omega
  ascending := by simp [children_root]

theorem WellNumbered.push {o : Outline} (h : WellNumbered o) {parent : Nat} (construct : Construct)
    (hparent : parent < o.size) : WellNumbered (o.push parent construct) := by
  have hmem : ∀ p c, c ∈ (o.push parent construct).children p ↔
      c ∈ o.children p ∨ p = parent ∧ c = o.size := by
    intro p c
    rw [children_push hparent]
    by_cases hp : p = parent
    · simp [hp]
    · simp [hp]
  refine ⟨?lt_child, ?child_lt_size, ?parent_unique, ?exists_parent, ?ascending⟩
  case lt_child =>
    intro p c hc
    rcases (hmem p c).1 hc with hc | ⟨rfl, rfl⟩
    · exact h.lt_child p c hc
    · exact hparent
  case child_lt_size =>
    intro p c hc
    rw [size_push]
    rcases (hmem p c).1 hc with hc | ⟨rfl, rfl⟩
    · exact Nat.lt_succ_of_lt (h.child_lt_size p c hc)
    · exact Nat.lt_succ_self _
  case parent_unique =>
    intro p q c hp hq
    rcases (hmem p c).1 hp with hold | ⟨rfl, rfl⟩
    · rcases (hmem q c).1 hq with hold' | ⟨-, hc⟩
      · exact h.parent_unique p q c hold hold'
      · exact absurd (hc ▸ h.child_lt_size p c hold) (Nat.lt_irrefl _)
    · rcases (hmem q o.size).1 hq with hold' | ⟨rfl, -⟩
      · exact absurd (h.child_lt_size q _ hold') (Nat.lt_irrefl _)
      · rfl
  case exists_parent =>
    intro c hpos hlt
    rw [size_push] at hlt
    by_cases hc : c = o.size
    · exact ⟨parent, (hmem parent c).2 (.inr ⟨rfl, hc⟩)⟩
    · obtain ⟨p, hp⟩ := h.exists_parent c hpos (by omega)
      exact ⟨p, (hmem p c).2 (.inl hp)⟩
  case ascending =>
    intro p
    rw [children_push hparent]
    split
    · refine List.pairwise_append.2 ⟨h.ascending p, List.pairwise_singleton _ _, ?_⟩
      intro c hc d hd
      rw [List.mem_singleton.1 hd]
      exact h.child_lt_size p c hc
    · exact h.ascending p

theorem Built.wellNumbered {o : Outline} (h : Built o) : WellNumbered o := by
  induction h with
  | root => exact wellNumbered_root
  | push ho hparent ih => exact ih.push _ hparent

end Outline

end CallAtlas
