import CallAtlas.Proofs.Scope.Schedule
/-!
# The depth limit of a walk

A child lies one level deeper than its parent. A walk fails exactly when a visited node lies deeper
than the limit, whatever lies below a node that hides it, and a limit that no visited node exceeds
leaves no trace in the output.
-/

namespace CallAtlas

namespace Outline

variable {o : Outline} {module : String}

/-- The number of levels from the root down to a node. -/
def depth (o : Outline) (n : Nat) : Nat := (o.ancestors n).length

@[simp] theorem depth_zero (o : Outline) : o.depth 0 = 0 := by
  rw [depth, ancestors_zero]
  rfl

namespace WellNumbered

variable (h : WellNumbered o)
include h

theorem depth_child {p c : Nat} (hc : c ∈ o.children p) : o.depth c = o.depth p + 1 := by
  rw [depth, h.ancestors_child hc, List.length_append]
  rfl

theorem walk_eq_error_iff {maxDepth limit : Nat} :
    o.walk maxDepth module = .error ⟨limit⟩ ↔
      limit = maxDepth ∧ ∃ n ∈ o.visitOrder, maxDepth < o.depth n := by
  rw [h.walk_eq]
  by_cases hdeep : ∃ n ∈ o.visitOrder, maxDepth < (o.ancestors n).length
  · rw [if_pos hdeep]
    constructor
    · intro heq
      cases heq
      exact ⟨rfl, hdeep⟩
    · rintro ⟨rfl, -⟩
      rfl
  · rw [if_neg hdeep]
    constructor
    · intro heq
      cases heq
    · rintro ⟨-, hn⟩
      exact absurd hn hdeep

end WellNumbered

/-- A walk fails exactly when a visited node lies deeper than the limit, which the failure names, and
two walks that succeed give the same output whatever their limits are. -/
theorem walk_depth_limit (ho : o.Built) (module : String) :
    (∀ maxDepth limit, o.walk maxDepth module = .error ⟨limit⟩ ↔
      limit = maxDepth ∧ ∃ n, n < o.size ∧ o.Visited n ∧ maxDepth < o.depth n) ∧
      ∀ d₁ d₂ r₁ r₂, o.walk d₁ module = .ok r₁ → o.walk d₂ module = .ok r₂ → r₁ = r₂ := by
  have hnumbered := ho.wellNumbered
  constructor
  · intro maxDepth limit
    rw [hnumbered.walk_eq_error_iff]
    simp only [mem_visitOrder_iff hnumbered, and_assoc]
  · intro d₁ d₂ r₁ r₂ h₁ h₂
    rw [hnumbered.eq_result_of_walk h₁, hnumbered.eq_result_of_walk h₂]

/-- An import that hides a function and what is in it. -/
def hiddenDepths : Outline :=
  (((root.push 0 (.importFrom none [])).push 1 (.functionDef "hidden")).push 2 .call).push 3 .other

/-- The import itself counts, and what lies below it does not. -/
theorem walk_depth_limit_hidden :
    hiddenDepths.Built ∧ hiddenDepths.walk 0 "app" = .error ⟨0⟩ ∧
      ∃ r, hiddenDepths.walk 1 "app" = .ok r ∧ hiddenDepths.walk 9 "app" = .ok r := by
  have hbuilt : hiddenDepths.Built :=
    .push (.push (.push (.push .root (by decide)) (by decide)) (by decide)) (by decide)
  obtain ⟨hfails, hsame⟩ := walk_depth_limit hbuilt "app"
  have himport : 1 ∈ hiddenDepths.children 0 := by decide
  have hdepth : hiddenDepths.depth 1 = 1 := by
    rw [hbuilt.wellNumbered.depth_child himport, depth_zero]
  have hvisited : hiddenDepths.Visited 1 := by
    intro a ha
    rw [hbuilt.wellNumbered.ancestors_child himport, ancestors_zero] at ha
    rw [List.mem_singleton.1 ha]
    rfl
  refine ⟨hbuilt, (hfails 0 0).2 ⟨rfl, 1, by decide, hvisited, by rw [hdepth]; decide⟩, ?_⟩
  obtain ⟨r₁, h₁, -⟩ : ∃ r, hiddenDepths.walk 1 "app" = .ok r ∧ r.module = "app" :=
    exists_walk_of_map rfl
  obtain ⟨r₂, h₂, -⟩ : ∃ r, hiddenDepths.walk 9 "app" = .ok r ∧ r.module = "app" :=
    exists_walk_of_map rfl
  exact ⟨r₁, h₁, by rw [h₂, hsame 1 9 r₁ r₂ h₁ h₂]⟩

end Outline

end CallAtlas
