import CallAtlas.Proofs.Lists
import CallAtlas.Proofs.Ordered.Lookup
/-!
# Equality of ordered maps and sets

Sets with the same members are equal, and so are maps with the same look-ups: the order leaves no
freedom in how the members stand. Hence taking a set or a map apart and putting it together again
changes nothing.
-/

namespace CallAtlas

variable {α β : Type} [Ord α] [Std.LawfulEqOrd α] [Std.TransOrd α]

/-- Two lists in the order of their keys have the same elements only if they are equal. -/
theorem eq_of_ascending {γ : Type} (key : γ → α) {l m : List γ}
    (hl : l.Pairwise fun a b => compare (key a) (key b) = .lt)
    (hm : m.Pairwise fun a b => compare (key a) (key b) = .lt) (h : ∀ a, a ∈ l ↔ a ∈ m) :
    l = m := by
  have hirrefl : Std.Irrefl fun a b : γ => compare (key a) (key b) = .lt :=
    ⟨fun a => by simp⟩
  have hantisymm : Std.Antisymm fun a b : γ => compare (key a) (key b) = .lt := by
    refine ⟨fun a b hab hba => ?_⟩
    have hgt := Std.OrientedCmp.gt_of_lt hab
    rw [hba] at hgt
    cases hgt
  exact hl.eq_of_mem_iff hm h

namespace OrderedSet

theorem ext_of_mem {s t : OrderedSet α} (h : ∀ a, a ∈ s ↔ a ∈ t) : s = t :=
  OrderedSet.ext (eq_of_ascending id s.ascending t.ascending h)

theorem ofList_toList (s : OrderedSet α) : ofList s.toList = s :=
  ext_of_mem fun _ => mem_ofList

end OrderedSet

namespace OrderedMap

theorem ext_of_get? {m n : OrderedMap α β} (h : ∀ k, m.get? k = n.get? k) : m = n := by
  apply OrderedMap.ext
  apply eq_of_ascending Prod.fst m.ascending n.ascending
  rintro ⟨k, b⟩
  rw [mem_entries_iff, mem_entries_iff, h]

theorem get?_ofList [DecidableEq α] (pairs : List (α × β)) (x : α) :
    (ofList pairs).get? x = (pairs.reverse.find? fun e => e.1 = x).map (·.2) := by
  have h := get?_foldl_insert pairs (∅ : OrderedMap α β) x
  rw [get?_empty, Option.or_none] at h
  exact h

theorem get?_ofList_eq_some_iff [DecidableEq α] {pairs : List (α × β)} {a : α} {b : β}
    (hnodup : (pairs.map (·.1)).Nodup) : (ofList pairs).get? a = some b ↔ (a, b) ∈ pairs := by
  rw [get?_ofList, find?_reverse_eq_some_iff hnodup]

omit [Std.TransOrd α] in
theorem nodup_keys (m : OrderedMap α β) : (m.entries.map (·.1)).Nodup :=
  List.pairwise_map.2 (m.ascending.imp ne_of_compare_lt)

theorem ofList_entries [DecidableEq α] (m : OrderedMap α β) : ofList m.entries = m := by
  apply ext_of_get?
  intro k
  apply Option.ext
  intro b
  rw [get?_ofList_eq_some_iff m.nodup_keys, mem_entries_iff]

/-! ### What the entries give -/

variable {γ : Type}

/-- What the entries of a map give one after another, without those that give nothing. -/
def parts (m : OrderedMap α β) (f : α → β → List γ) : List (α × List γ) :=
  (m.entries.map fun e => (e.1, f e.1 e.2)).filter fun e => !e.2.isEmpty

omit [Std.LawfulEqOrd α] [Std.TransOrd α] in
theorem flatMap_parts (m : OrderedMap α β) (f : α → β → List γ) :
    (m.parts f).flatMap (·.2) = m.entries.flatMap fun e => f e.1 e.2 := by
  unfold parts
  induction m.entries with
  | nil => rfl
  | cons e rest ih =>
    rw [List.map_cons, List.flatMap_cons, ← ih, List.filter_cons]
    split
    · rfl
    · rename_i hempty
      have hnil : f e.1 e.2 = [] := by simpa using hempty
      rw [hnil, List.nil_append]

omit [Std.LawfulEqOrd α] [Std.TransOrd α] in
theorem ascending_parts (m : OrderedMap α β) (f : α → β → List γ) :
    (m.parts f).Pairwise fun a b => compare a.1 b.1 = .lt :=
  (List.pairwise_map.2 m.ascending).filter _

omit [Std.TransOrd α] in
theorem mem_parts {m : OrderedMap α β} {f : α → β → List γ} {k : α} {l : List γ} :
    (k, l) ∈ m.parts f ↔ (m.get? k).elim [] (f k) = l ∧ l ≠ [] := by
  rw [parts, List.mem_filter, List.mem_map]
  constructor
  · rintro ⟨⟨⟨a, b⟩, hmem, heq⟩, hne⟩
    cases heq
    rw [mem_entries_iff.1 hmem]
    exact ⟨rfl, by simpa using hne⟩
  · rintro ⟨rfl, hne⟩
    cases hk : m.get? k with
    | none =>
      rw [hk] at hne
      exact absurd rfl hne
    | some b =>
      rw [hk] at hne
      exact ⟨⟨(k, b), mem_entries_iff.2 hk, rfl⟩, by simpa using hne⟩

/-- What the entries of two maps give is the same if it is the same for each key. -/
theorem flatMap_congr_of_get? {δ : Type} {m : OrderedMap α β} {n : OrderedMap α δ}
    {f : α → β → List γ} {g : α → δ → List γ}
    (h : ∀ k, (m.get? k).elim [] (f k) = (n.get? k).elim [] (g k)) :
    (m.entries.flatMap fun e => f e.1 e.2) = n.entries.flatMap fun e => g e.1 e.2 := by
  rw [← flatMap_parts, ← flatMap_parts]
  congr 1
  apply eq_of_ascending Prod.fst (m.ascending_parts f) (n.ascending_parts g)
  rintro ⟨k, l⟩
  rw [mem_parts, mem_parts, h]

end OrderedMap

end CallAtlas
