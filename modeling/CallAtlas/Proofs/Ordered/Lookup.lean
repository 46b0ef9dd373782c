import CallAtlas.Ordered.Map
import CallAtlas.Ordered.Set
/-!
# Looking up in ordered maps and sets

Every operation of an ordered map or set is determined by what it does to look-ups and membership.
The comparison is total, and things that compare as equal are equal.
-/

namespace CallAtlas

variable {α β : Type} [Ord α] [Std.LawfulEqOrd α]

theorem compare_ne_eq {a b : α} (h : a ≠ b) : compare a b ≠ .eq :=
  fun heq => h (Std.LawfulEqCmp.compare_eq_iff_eq.1 heq)

theorem ne_of_compare_lt {a b : α} (h : compare a b = .lt) : a ≠ b := by
  rintro rfl
  simp at h

namespace OrderedMap

theorem mem_of_lookup_eq_some {k : α} {b : β} {entries : List (α × β)}
    (h : lookup k entries = some b) : (k, b) ∈ entries := by
  induction entries with
  | nil => simp [lookup] at h
  | cons e rest ih =>
    obtain ⟨a, c⟩ := e
    rw [lookup] at h
    split at h
    · rename_i heq
      obtain rfl := Std.LawfulEqCmp.compare_eq_iff_eq.1 heq
      cases h
      exact List.mem_cons_self
    · exact List.mem_cons_of_mem _ (ih h)

theorem lookup_eq_none {k : α} {entries : List (α × β)} (h : ∀ e ∈ entries, e.1 ≠ k) :
    lookup k entries = none := by
  cases hl : lookup k entries with
  | none => rfl
  | some b => exact absurd rfl (h _ (mem_of_lookup_eq_some hl))

theorem lookup_eq_some_of_mem {k : α} {b : β} {entries : List (α × β)}
    (hasc : entries.Pairwise fun a b => compare a.1 b.1 = .lt) (h : (k, b) ∈ entries) :
    lookup k entries = some b := by
  induction entries with
  | nil => simp at h
  | cons e rest ih =>
    obtain ⟨hhead, hrest⟩ := List.pairwise_cons.1 hasc
    rcases List.mem_cons.1 h with rfl | h
    · simp [lookup]
    · rw [lookup, if_neg, ih hrest h]
      exact compare_ne_eq (ne_of_compare_lt (hhead _ h)).symm

theorem mem_entries_iff {m : OrderedMap α β} {k : α} {b : β} :
    (k, b) ∈ m.entries ↔ m.get? k = some b :=
  ⟨lookup_eq_some_of_mem m.ascending, mem_of_lookup_eq_some⟩

theorem mem_keys_iff {m : OrderedMap α β} {k : α} : k ∈ m.keys ↔ ∃ b, m.get? k = some b := by
  simp [keys, ← mem_entries_iff]

omit [Std.LawfulEqOrd α] in
@[simp] theorem get?_empty (k : α) : (∅ : OrderedMap α β).get? k = none := rfl

omit [Std.LawfulEqOrd α] in
theorem get?_mapValues {γ : Type} (f : β → γ) (m : OrderedMap α β) (k : α) :
    (m.mapValues f).get? k = (m.get? k).map f := by
  show lookup k (m.entries.map fun e => (e.1, f e.2)) = (lookup k m.entries).map f
  induction m.entries with
  | nil => rfl
  | cons e rest ih =>
    rw [List.map_cons, lookup, lookup, ih]
    split <;> rfl

theorem lookup_upsertEntries_ne {k x : α} (h : x ≠ k) (f : Option β → β)
    (entries : List (α × β)) : lookup x (upsertEntries k f entries) = lookup x entries := by
  induction entries with
  | nil => simp [upsertEntries, lookup, h]
  | cons e rest ih =>
    obtain ⟨a, b⟩ := e
    unfold upsertEntries
    split
    · rw [lookup, if_neg (compare_ne_eq h)]
    · rename_i heq
      obtain rfl := Std.LawfulEqCmp.compare_eq_iff_eq.1 heq
      simp [lookup, h]
    · simp [lookup, ih]

theorem get?_erase_ne {m : OrderedMap α β} {k x : α} (h : x ≠ k) :
    (m.erase k).get? x = m.get? x := by
  show lookup x (m.entries.filter fun e => compare k e.1 != .eq) = lookup x m.entries
  induction m.entries with
  | nil => rfl
  | cons e rest ih =>
    by_cases he : k = e.1
    · subst he
      simp [lookup, ih, h]
    · simp [lookup, ih, he]

theorem get?_erase_self (m : OrderedMap α β) (k : α) : (m.erase k).get? k = none := by
  apply lookup_eq_none
  rintro e he rfl
  simp [erase] at he

theorem get?_erase_eq_some {m : OrderedMap α β} {k x : α} {b : β} :
    (m.erase k).get? x = some b ↔ x ≠ k ∧ m.get? x = some b := by
  by_cases h : x = k
  · subst h
    simp [get?_erase_self]
  · simp [get?_erase_ne h, h]

variable [Std.TransOrd α]

theorem lookup_upsertEntries_self (k : α) (f : Option β → β) {entries : List (α × β)}
    (hasc : entries.Pairwise fun a b => compare a.1 b.1 = .lt) :
    lookup k (upsertEntries k f entries) = some (f (lookup k entries)) := by
  induction entries with
  | nil => simp [upsertEntries, lookup]
  | cons e rest ih =>
    obtain ⟨a, b⟩ := e
    obtain ⟨hhead, hrest⟩ := List.pairwise_cons.1 hasc
    unfold upsertEntries
    split
    · rename_i hlt
      -- the entries that follow are greater than `k`, so that none of them has its key
      have hnone : lookup k ((a, b) :: rest) = none := by
        apply lookup_eq_none
        intro e he
        rcases List.mem_cons.1 he with rfl | he
        · exact (ne_of_compare_lt hlt).symm
        · exact (ne_of_compare_lt (Std.TransCmp.lt_trans hlt (hhead e he))).symm
      rw [hnone, lookup, if_pos Std.ReflCmp.compare_self]
    · rename_i heq
      simp [lookup, heq]
    · rename_i hgt
      simp [lookup, hgt, ih hrest]

theorem get?_upsert_self (m : OrderedMap α β) (k : α) (f : Option β → β) :
    (m.upsert k f).get? k = some (f (m.get? k)) :=
  lookup_upsertEntries_self k f m.ascending

theorem get?_upsert_ne {m : OrderedMap α β} {k x : α} (h : x ≠ k) (f : Option β → β) :
    (m.upsert k f).get? x = m.get? x :=
  lookup_upsertEntries_ne h f m.entries

theorem get?_insert_eq_some {m : OrderedMap α β} {k x : α} {b c : β} :
    (m.insert k b).get? x = some c ↔ x = k ∧ c = b ∨ x ≠ k ∧ m.get? x = some c := by
  by_cases h : x = k
  · subst h
    simp [insert, get?_upsert_self, eq_comm]
  · simp [insert, get?_upsert_ne h, h]

theorem get?_insert [DecidableEq α] (m : OrderedMap α β) (k x : α) (b : β) :
    (m.insert k b).get? x = if x = k then some b else m.get? x := by
  by_cases h : x = k
  · subst h
    simp [insert, get?_upsert_self]
  · simp [insert, get?_upsert_ne h, h]

/-- Of several insertions of a key, the last one counts. -/
theorem get?_foldl_insert [DecidableEq α] (pairs : List (α × β)) (m : OrderedMap α β) (x : α) :
    (pairs.foldl (fun m e => m.insert e.1 e.2) m).get? x =
      ((pairs.reverse.find? fun e => e.1 = x).map (·.2)).or (m.get? x) := by
  induction pairs generalizing m with
  | nil => simp
  | cons e rest ih =>
    rw [List.foldl_cons, ih, get?_insert, List.reverse_cons, List.find?_append]
    cases hfind : rest.reverse.find? fun e => e.1 = x with
    | some e' => simp
    | none =>
      by_cases h : e.1 = x
      · simp [h]
      · simp [h, Ne.symm h]

end OrderedMap

namespace OrderedSet

theorem contains_iff {s : OrderedSet α} {a : α} : s.contains a = true ↔ a ∈ s := by
  simp only [contains, List.any_eq_true, beq_iff_eq, Std.LawfulEqCmp.compare_eq_iff_eq]
  exact ⟨fun ⟨b, hb, hab⟩ => hab ▸ hb, fun h => ⟨a, h, rfl⟩⟩

omit [Std.LawfulEqOrd α] in
theorem mem_toList {s : OrderedSet α} {a : α} : a ∈ s.toList ↔ a ∈ s := .rfl

theorem nodup_toList (s : OrderedSet α) : s.toList.Nodup := s.ascending.imp ne_of_compare_lt

omit [Std.LawfulEqOrd α] in
@[simp] theorem not_mem_empty (a : α) : a ∉ (∅ : OrderedSet α) := List.not_mem_nil

theorem mem_insertMember {a x : α} {members : List α} :
    x ∈ insertMember a members ↔ x = a ∨ x ∈ members := by
  induction members with
  | nil => simp [insertMember]
  | cons b rest ih =>
    unfold insertMember
    split
    · simp
    · rename_i heq
      obtain rfl := Std.LawfulEqCmp.compare_eq_iff_eq.1 heq
      simp
    · simp [ih, or_left_comm]

variable [Std.TransOrd α]

@[simp] theorem mem_insert {s : OrderedSet α} {a x : α} : x ∈ s.insert a ↔ x = a ∨ x ∈ s :=
  mem_insertMember

theorem mem_foldl_insert {members : List α} {s : OrderedSet α} {x : α} :
    x ∈ members.foldl insert s ↔ x ∈ members ∨ x ∈ s := by
  induction members generalizing s with
  | nil => simp
  | cons a rest ih => simp [ih, or_assoc, or_left_comm]

@[simp] theorem mem_ofList {members : List α} {x : α} : x ∈ ofList members ↔ x ∈ members := by
  simp only [ofList, mem_foldl_insert]
  exact or_iff_left List.not_mem_nil

omit [Std.LawfulEqOrd α] [Std.TransOrd α] in
theorem length_insertMember_le (a : α) (members : List α) :
    (insertMember a members).length ≤ members.length + 1 := by
  induction members with
  | nil => simp [insertMember]
  | cons b rest ih =>
    unfold insertMember
    split <;> simp [ih]

omit [Std.LawfulEqOrd α] in
theorem length_foldl_insert_le (members : List α) (s : OrderedSet α) :
    (members.foldl insert s).toList.length ≤ s.toList.length + members.length := by
  induction members generalizing s with
  | nil => exact Nat.le_refl _
  | cons a rest ih =>
    have hinsert : (s.insert a).toList.length ≤ s.toList.length + 1 :=
      length_insertMember_le a s.toList
    have hrest := ih (s.insert a)
    rw [List.foldl_cons, List.length_cons]
    omega

omit [Std.LawfulEqOrd α] in
theorem length_ofList_le (members : List α) : (ofList members).toList.length ≤ members.length :=
  Nat.le_trans (length_foldl_insert_le members empty) (Nat.le_of_eq (Nat.zero_add _))

end OrderedSet

end CallAtlas
