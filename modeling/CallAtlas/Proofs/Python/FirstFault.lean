import CallAtlas.Python.Outline
/-!
# The first fault of a concrete tree

The search for a fault leaves out the subtrees that hold none. It finds the fault that comes first in
preorder all the same, because a subtree that is left out has no fault among its nodes, and what is
entered keeps its order. So a tree that is refused is refused with the line of that fault.

The induction is along the search, which the pending trees stand for as a whole: it finds the first
fault among all nodes of these, one pending tree after the other.
-/

namespace CallAtlas.Python.Tree

/-! ### Preorder -/

theorem preorder_eq (t : Tree) : t.preorder = t :: preorders t.children := by
  cases t with
  | leaf => rfl
  | missing => rfl
  | branch => rw [preorder, children]

theorem preorders_append (ts us : List Tree) :
    preorders (ts ++ us) = preorders ts ++ preorders us := by
  induction ts with
  | nil => rfl
  | cons t ts ih => rw [List.cons_append, preorders, preorders, ih, List.append_assoc]

/-! ### Trees that hold a fault -/

theorem isFault_iff {t : Tree} : t.isFault = true ↔ t.kind = .error ∨ t.isMissing = true := by
  rw [isFault, Bool.or_eq_true, beq_iff_eq]

mutual
theorem hasFault_eq_any : (t : Tree) → t.hasFault = t.preorder.any isFault
  | leaf .. => by simp [hasFault, preorder, isFault, isMissing, kind]
  | missing .. => by simp [hasFault, preorder, isFault, isMissing]
  | branch k ts => by
    have hself : (branch k ts).isFault = (k == .error) := by simp [isFault, isMissing, kind]
    rw [hasFault, preorder, List.any_cons, hself, anyFault_eq_any ts]

theorem anyFault_eq_any : (ts : List Tree) → anyFault ts = (preorders ts).any isFault
  | [] => rfl
  | t :: ts => by
    rw [anyFault, preorders, List.any_append, hasFault_eq_any t, anyFault_eq_any ts]
end

theorem hasFault_iff {t : Tree} : t.hasFault = true ↔ ∃ n ∈ t.preorder, n.isFault = true := by
  rw [hasFault_eq_any, List.any_eq_true]

/-! ### The search -/

/-- Trees without a fault can be left out of a search. -/
theorem find?_preorders_filter (ts : List Tree) :
    (preorders (ts.filter fun c => c.hasFault || c.isMissing)).find? isFault =
      (preorders ts).find? isFault := by
  induction ts with
  | nil => rfl
  | cons t ts ih =>
    rw [List.filter_cons, preorders, List.find?_append]
    split
    · rw [preorders, List.find?_append, ih]
    · rename_i hleft
      -- the tree that is left out has no fault among its nodes
      have hnone : t.preorder.find? isFault = none := by
        rw [List.find?_eq_none]
        intro n hn hfault
        exact hleft (Bool.or_eq_true_iff.2 (.inl (hasFault_iff.2 ⟨n, hn, hfault⟩)))
      rw [hnone, Option.none_or, ih]

theorem searchFault_eq (pending : List Tree) :
    searchFault pending = (preorders pending).find? isFault := by
  fun_induction searchFault pending with
  | case1 => rfl
  | case2 t pending hfault =>
    rw [preorders, preorder_eq, List.cons_append, List.find?_cons_of_pos hfault]
  | case3 t pending hfault ih =>
    rw [ih, preorders_append, List.find?_append, find?_preorders_filter, preorders, preorder_eq,
      List.cons_append, List.find?_cons_of_neg hfault, List.find?_append]

theorem firstFault_eq (t : Tree) : t.firstFault = t.preorder.find? isFault := by
  rw [firstFault, searchFault_eq, preorders, preorders, List.append_nil]

theorem firstFault_eq_some_iff {t n : Tree} :
    t.firstFault = some n ↔ n.isFault = true ∧
      ∃ before after, t.preorder = before ++ n :: after ∧ ∀ m ∈ before, m.isFault = false := by
  simp only [firstFault_eq, List.find?_eq_some_iff_append, Bool.not_eq_true']

theorem exists_firstFault {t : Tree} (h : t.hasFault = true) : ∃ n, t.firstFault = some n := by
  rw [← Option.isSome_iff_exists, firstFault_eq, List.find?_isSome]
  exact hasFault_iff.1 h

/-- A tree holds a fault exactly if one of its nodes is an error or a missing token, and the search
finds the one that comes first in preorder. If there is one, the tree is refused with its line, and
otherwise the tree has an outline. -/
theorem refused_at_first_fault (t : Tree) :
    (t.hasFault = true ↔ ∃ n ∈ t.preorder, n.kind = .error ∨ n.isMissing = true) ∧
    (∀ n, t.firstFault = some n ↔ (n.kind = .error ∨ n.isMissing = true) ∧
      ∃ before after, t.preorder = before ++ n :: after ∧
        ∀ m ∈ before, m.kind ≠ .error ∧ m.isMissing = false) ∧
    (t.hasFault = true → ∃ n, t.firstFault = some n ∧ t.checked = .error ⟨n.row + 1⟩) ∧
    (t.hasFault = false → t.firstFault = none ∧ t.checked = .ok t.outline) := by
  have hno (m : Tree) : m.isFault = false ↔ m.kind ≠ .error ∧ m.isMissing = false := by
    rw [← Bool.not_eq_true, isFault_iff, not_or, Bool.not_eq_true]
  refine ⟨?_, ?_, ?_, ?_⟩
  · simp only [hasFault_iff, isFault_iff]
  · intro n
    simp only [firstFault_eq_some_iff, isFault_iff, hno]
  · intro hfault
    obtain ⟨n, hn⟩ := exists_firstFault hfault
    refine ⟨n, hn, ?_⟩
    rw [checked, if_pos hfault, hn]
    rfl
  · intro hfaultless
    constructor
    · rw [firstFault_eq, List.find?_eq_none]
      intro n hn hfault
      rw [hasFault_iff.2 ⟨n, hn, hfault⟩] at hfaultless
      cases hfaultless
    · rw [checked, hfaultless]
      rfl

/-- An error within an error. -/
def strayTokens : Tree :=
  .branch .error [.leaf .symbol 2 ['\n'] [':'], .branch .error [.leaf .symbol 2 [] ['?']]]

/-- A definition without a closing bracket, behind a faultless statement and in front of a statement
that a missing token ends. -/
def brokenDefinition : Tree :=
  .branch .module [
    .branch .expressionStatement [.leaf .identifier 0 [] ['x']],
    .branch .functionDefinition [.leaf .identifier 1 ['\n'] ['f'],
      .branch .parameters [.leaf .symbol 1 [] ['('], strayTokens, .missing .symbol 3]],
    .missing .symbol 4]

theorem refused_at_first_fault_nested :
    brokenDefinition.hasFault = true ∧ brokenDefinition.firstFault = some strayTokens ∧
      brokenDefinition.checked = .error ⟨3⟩ := by
  obtain ⟨hfault, hfirst, hrefused, -⟩ := refused_at_first_fault brokenDefinition
  have hfound : brokenDefinition.firstFault = some strayTokens :=
    (hfirst strayTokens).2 ⟨.inl rfl, brokenDefinition.preorder.take 7,
      brokenDefinition.preorder.drop 8, rfl, by decide⟩
  have hfaulty : brokenDefinition.hasFault = true :=
    hfault.2 ⟨strayTokens, List.mem_of_getElem? (i := 7) rfl, .inl rfl⟩
  obtain ⟨n, hn, hchecked⟩ := hrefused hfaulty
  rw [hfound] at hn
  cases hn
  exact ⟨hfaulty, hfound, hchecked⟩

end CallAtlas.Python.Tree
