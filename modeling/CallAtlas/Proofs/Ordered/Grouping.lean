import CallAtlas.Proofs.Ordered.Lookup
import Mathlib.Data.List.Induction
/-!
# Grouping by a key

Values that are filed under their keys one after another stand under each key in the order in which
they came, and there is no key without a value.
-/

namespace CallAtlas.OrderedMap

variable {α β γ : Type} [Ord α] [Std.TransOrd α]
variable (key : γ → α) (value : γ → β)

/-- Files the values of some things under their keys. -/
def group (xs : List γ) : OrderedMap α (List β) :=
  xs.foldl (fun m x => m.upsert (key x) fun vs => vs.getD [] ++ [value x]) ∅

theorem group_concat (xs : List γ) (x : γ) :
    group key value (xs ++ [x]) =
      (group key value xs).upsert (key x) fun vs => vs.getD [] ++ [value x] := by
  simp [group]

variable [Std.LawfulEqOrd α]

theorem getD_get?_group [DecidableEq α] (xs : List γ) (k : α) :
    ((group key value xs).get? k).getD [] = (xs.filter fun x => key x = k).map value := by
  induction xs using List.reverseRecOn with
  | nil => rfl
  | append_singleton xs x ih =>
    rw [group_concat, List.filter_append, List.map_append, ← ih]
    by_cases hk : key x = k
    · subst hk
      simp [get?_upsert_self]
    · simp [get?_upsert_ne (Ne.symm hk), hk]

theorem ne_nil_of_get?_group {xs : List γ} {k : α} {vs : List β}
    (h : (group key value xs).get? k = some vs) : vs ≠ [] := by
  induction xs using List.reverseRecOn generalizing vs with
  | nil => cases h
  | append_singleton xs x ih =>
    rw [group_concat] at h
    by_cases hk : key x = k
    · subst hk
      rw [get?_upsert_self] at h
      cases h
      simp
    · rw [get?_upsert_ne (Ne.symm hk)] at h
      exact ih h

theorem get?_group_eq_some [DecidableEq α] {xs : List γ} {k : α} {vs : List β} :
    (group key value xs).get? k = some vs ↔
      vs ≠ [] ∧ vs = (xs.filter fun x => key x = k).map value := by
  have hgetD := getD_get?_group key value xs k
  constructor
  · intro h
    rw [h] at hgetD
    exact ⟨ne_nil_of_get?_group key value h, hgetD⟩
  · rintro ⟨hne, rfl⟩
    cases hget : (group key value xs).get? k with
    | none =>
      rw [hget] at hgetD
      exact absurd hgetD.symm hne
    | some vs =>
      rw [hget] at hgetD
      rw [← hgetD]
      rfl

end CallAtlas.OrderedMap
