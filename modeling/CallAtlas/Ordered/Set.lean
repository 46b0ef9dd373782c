/-!
# Ordered sets

Finite sets as strictly ascending lists. Two sets with the same members are equal.
-/

namespace CallAtlas

/-- A finite set whose members stand in ascending order. -/
@[ext]
structure OrderedSet (α : Type) [Ord α] where
  /-- The members in order. -/
  toList : List α
  /-- Every member is smaller than the members after it. -/
  ascending : toList.Pairwise fun a b => compare a b = .lt

namespace OrderedSet

variable {α : Type} [Ord α]

def empty : OrderedSet α := ⟨[], .nil⟩

instance : EmptyCollection (OrderedSet α) := ⟨empty⟩
instance : Inhabited (OrderedSet α) := ⟨empty⟩

instance [DecidableEq α] : DecidableEq (OrderedSet α) := fun s t =>
  decidable_of_iff (s.toList = t.toList) OrderedSet.ext_iff.symm

def size (s : OrderedSet α) : Nat := s.toList.length

instance : Membership α (OrderedSet α) := ⟨fun s a => a ∈ s.toList⟩

instance [DecidableEq α] (a : α) (s : OrderedSet α) : Decidable (a ∈ s) :=
  inferInstanceAs (Decidable (a ∈ s.toList))

/-- Whether something is a member, by comparison. -/
def contains (s : OrderedSet α) (a : α) : Bool := s.toList.any fun b => compare a b == .eq

/-- Puts a member at its place in an ascending list. -/
def insertMember (a : α) : List α → List α
  | [] => [a]
  | b :: rest =>
    match compare a b with
    | .lt => a :: b :: rest
    | .eq => b :: rest
    | .gt => b :: insertMember a rest

theorem mem_insertMember_cases {a x : α} {members : List α} (h : x ∈ insertMember a members) :
    x = a ∨ x ∈ members := by
  induction members with
  | nil => simp_all [insertMember]
  | cons b rest ih =>
    unfold insertMember at h
    split at h
    · simpa using h
    · exact .inr h
    · rcases List.mem_cons.1 h with rfl | h
      · exact .inr List.mem_cons_self
      · exact (ih h).imp_right (List.mem_cons_of_mem _)

variable [Std.TransOrd α]

theorem ascending_insertMember (a : α) {members : List α}
    (h : members.Pairwise fun a b => compare a b = .lt) :
    (insertMember a members).Pairwise fun a b => compare a b = .lt := by
  induction members with
  | nil => simp [insertMember]
  | cons b rest ih =>
    obtain ⟨hhead, hrest⟩ := List.pairwise_cons.1 h
    unfold insertMember
    split
    · rename_i hlt
      refine List.pairwise_cons.2 ⟨fun x hx => ?_, h⟩
      rcases List.mem_cons.1 hx with rfl | hx
      · exact hlt
      · exact Std.TransCmp.lt_trans hlt (hhead x hx)
    · exact h
    · rename_i hgt
      refine List.pairwise_cons.2 ⟨fun x hx => ?_, ih hrest⟩
      rcases mem_insertMember_cases hx with rfl | hx
      · exact Std.OrientedCmp.gt_iff_lt.1 hgt
      · exact hhead x hx

/-- The set with one more member. -/
def insert (s : OrderedSet α) (a : α) : OrderedSet α :=
  ⟨insertMember a s.toList, ascending_insertMember a s.ascending⟩

def ofList (members : List α) : OrderedSet α := members.foldl insert empty

/-- The members of either set. -/
def union (s t : OrderedSet α) : OrderedSet α := t.toList.foldl insert s

end OrderedSet

end CallAtlas
