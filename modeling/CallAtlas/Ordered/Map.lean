/-!
# Ordered maps

Finite maps as lists with strictly ascending keys. Since the keys are ascending, a map is determined
by its look-ups, so that equality of maps is equality of their entries.
-/

namespace CallAtlas

/-- A finite map whose entries stand in ascending order of their keys. -/
@[ext]
structure OrderedMap (α : Type) (β : Type) [Ord α] where
  /-- The entries in order. -/
  entries : List (α × β)
  /-- Every key is smaller than the keys after it. -/
  ascending : entries.Pairwise fun a b => compare a.1 b.1 = .lt

namespace OrderedMap

variable {α β : Type} [Ord α]

def empty : OrderedMap α β := ⟨[], .nil⟩

instance : EmptyCollection (OrderedMap α β) := ⟨empty⟩
instance : Inhabited (OrderedMap α β) := ⟨empty⟩

instance [DecidableEq α] [DecidableEq β] : DecidableEq (OrderedMap α β) := fun m n =>
  decidable_of_iff (m.entries = n.entries) OrderedMap.ext_iff.symm

/-- The keys in ascending order. -/
def keys (m : OrderedMap α β) : List α := m.entries.map (·.1)

def size (m : OrderedMap α β) : Nat := m.entries.length

/-- The value of a key among entries. -/
def lookup (k : α) : List (α × β) → Option β
  | [] => none
  | (a, b) :: rest => if compare k a = .eq then some b else lookup k rest

def get? (m : OrderedMap α β) (k : α) : Option β := lookup k m.entries

theorem lookup_eq_none_of_compare {k : α} {entries : List (α × β)}
    (h : ∀ e ∈ entries, compare k e.1 ≠ .eq) : lookup k entries = none := by
  induction entries with
  | nil => rfl
  | cons e rest ih =>
    rw [lookup, if_neg (h e List.mem_cons_self)]
    exact ih fun e' he' => h e' (List.mem_cons_of_mem _ he')

theorem get?_eq_none {m : OrderedMap α β} {k : α} (h : ∀ a ∈ m.keys, compare k a ≠ .eq) :
    m.get? k = none :=
  lookup_eq_none_of_compare fun e he => h e.1 (List.mem_map.2 ⟨e, he, rfl⟩)

def contains (m : OrderedMap α β) (k : α) : Bool := (m.get? k).isSome

/-- Gives a key the value that `f` makes of its old one. -/
def upsertEntries (k : α) (f : Option β → β) : List (α × β) → List (α × β)
  | [] => [(k, f none)]
  | (a, b) :: rest =>
    match compare k a with
    | .lt => (k, f none) :: (a, b) :: rest
    | .eq => (a, f (some b)) :: rest
    | .gt => (a, b) :: upsertEntries k f rest

theorem key_of_mem_upsertEntries {k : α} {f : Option β → β} {entries : List (α × β)} {e : α × β}
    (h : e ∈ upsertEntries k f entries) : e.1 = k ∨ ∃ e' ∈ entries, e'.1 = e.1 := by
  induction entries with
  | nil => simp_all [upsertEntries]
  | cons head rest ih =>
    obtain ⟨a, b⟩ := head
    unfold upsertEntries at h
    split at h
    · rcases List.mem_cons.1 h with rfl | h
      · exact .inl rfl
      · exact .inr ⟨e, h, rfl⟩
    · rcases List.mem_cons.1 h with rfl | h
      · exact .inr ⟨(a, b), List.mem_cons_self, rfl⟩
      · exact .inr ⟨e, List.mem_cons_of_mem _ h, rfl⟩
    · rcases List.mem_cons.1 h with rfl | h
      · exact .inr ⟨(a, b), List.mem_cons_self, rfl⟩
      · rcases ih h with hk | ⟨e', he', hk⟩
        · exact .inl hk
        · exact .inr ⟨e', List.mem_cons_of_mem _ he', hk⟩

def erase (m : OrderedMap α β) (k : α) : OrderedMap α β :=
  ⟨m.entries.filter fun e => compare k e.1 != .eq, m.ascending.filter _⟩

/-- The map with `f` applied to its values. -/
def mapValues {γ : Type} (f : β → γ) (m : OrderedMap α β) : OrderedMap α γ :=
  ⟨m.entries.map fun e => (e.1, f e.2), List.pairwise_map.2 m.ascending⟩

variable [Std.TransOrd α]

theorem ascending_upsertEntries (k : α) (f : Option β → β) {entries : List (α × β)}
    (h : entries.Pairwise fun a b => compare a.1 b.1 = .lt) :
    (upsertEntries k f entries).Pairwise fun a b => compare a.1 b.1 = .lt := by
  induction entries with
  | nil => simp [upsertEntries]
  | cons head rest ih =>
    obtain ⟨a, b⟩ := head
    obtain ⟨hhead, hrest⟩ := List.pairwise_cons.1 h
    unfold upsertEntries
    split
    · rename_i hlt
      refine List.pairwise_cons.2 ⟨fun e he => ?_, h⟩
      rcases List.mem_cons.1 he with rfl | he
      · exact hlt
      · exact Std.TransCmp.lt_trans hlt (hhead e he)
    · exact List.pairwise_cons.2 ⟨fun e he => hhead e he, hrest⟩
    · rename_i hgt
      refine List.pairwise_cons.2 ⟨fun e he => ?_, ih hrest⟩
      rcases key_of_mem_upsertEntries he with hk | ⟨e', he', hk⟩
      · rw [hk]
        exact Std.OrientedCmp.gt_iff_lt.1 hgt
      · rw [← hk]
        exact hhead e' he'

def upsert (m : OrderedMap α β) (k : α) (f : Option β → β) : OrderedMap α β :=
  ⟨upsertEntries k f m.entries, ascending_upsertEntries k f m.ascending⟩

/-- Gives a key a value, in place of an old one. -/
def insert (m : OrderedMap α β) (k : α) (b : β) : OrderedMap α β := m.upsert k fun _ => b

/-- The map of pairs, of which the last with a key counts. -/
def ofList (pairs : List (α × β)) : OrderedMap α β :=
  pairs.foldl (fun m (k, b) => m.insert k b) empty

end OrderedMap

end CallAtlas
