import Mathlib.Algebra.GroupWithZero.Nat
import Mathlib.Algebra.Order.BigOperators.Group.List
import Mathlib.Algebra.Order.Group.Nat
import Mathlib.Data.List.Nodup
import Mathlib.Data.List.Rotate
import Mathlib.Data.List.Sort
import Mathlib.Data.List.TakeWhile
/-!
# Lists

Facts about lists of any kind that several parts of the theory rest on: places in lists, cutting by a
property of the elements, tables of keys, sums and orders.
-/

namespace CallAtlas

variable {α β : Type}

/-! ### Places -/

theorem getElem?_concat_eq_some {l : List α} {a x : α} {i : Nat} :
    (l ++ [a])[i]? = some x ↔ l[i]? = some x ∨ x = a ∧ i = l.length := by
  rw [List.getElem?_append]
  split
  · rename_i hi
    simp [Nat.ne_of_lt hi]
  · rename_i hi
    rw [List.getElem?_eq_none (Nat.le_of_not_lt hi), List.getElem?_singleton]
    have hsub : i - l.length = 0 ↔ i = l.length := by omega
    simp [hsub, and_comm, eq_comm]

theorem modify_append_of_lt {l : List α} {i : Nat} (h : i < l.length) (m : List α) (f : α → α) :
    (l ++ m).modify i f = l.modify i f ++ m := by
  induction l generalizing i with
  | nil => simp at h
  | cons a l ih =>
    cases i with
    | zero => rfl
    | succ i => simp [ih (Nat.lt_of_succ_lt_succ h)]

theorem modify_concat_length (l : List α) (a : α) (f : α → α) :
    (l ++ [a]).modify l.length f = l ++ [f a] := by
  induction l with
  | nil => rfl
  | cons b l ih => simp [ih]

/-- A split of a list with one more element is at that element or before it. -/
theorem exists_split_concat {P : List α → α → Prop} {xs : List α} {x : α} :
    (∃ before y after, xs ++ [x] = before ++ y :: after ∧ P before y) ↔
      (∃ before y after, xs = before ++ y :: after ∧ P before y) ∨ P xs x := by
  constructor
  · rintro ⟨before, y, after, heq, hP⟩
    rcases List.eq_nil_or_concat after with rfl | ⟨after', z, rfl⟩
    · obtain ⟨rfl, hxy⟩ := List.append_inj' heq rfl
      cases hxy
      exact .inr hP
    · rw [List.concat_eq_append, ← List.cons_append, ← List.append_assoc] at heq
      obtain ⟨rfl, -⟩ := List.append_inj' heq rfl
      exact .inl ⟨before, y, after', rfl, hP⟩
  · rintro (⟨before, y, after, rfl, hP⟩ | hP)
    · exact ⟨before, y, after ++ [x], by simp, hP⟩
    · exact ⟨xs, x, [], rfl, hP⟩

theorem two_le_length_of_mem {a b : α} {l : List α} (ha : a ∈ l) (hb : b ∈ l) (hne : a ≠ b) :
    2 ≤ l.length := by
  rcases l with _ | ⟨x, _ | ⟨y, rest⟩⟩
  · cases ha
  · rw [List.mem_singleton] at ha hb
    exact absurd (ha.trans hb.symm) hne
  · simp

/-- Rotations that begin with an element are equal if it stands in them once. -/
theorem eq_of_isRotated_of_head? [DecidableEq α] {l m : List α} {a : α} (h : l.IsRotated m)
    (hl : l.head? = some a) (hm : m.head? = some a) (hone : l.count a = 1) : l = m := by
  obtain ⟨n, hn, rfl⟩ := List.isRotated_iff_mod.1 h
  rcases Nat.eq_zero_or_pos n with rfl | hpos
  · exact (List.rotate_zero l).symm
  rcases Nat.eq_or_lt_of_le hn with rfl | hlt
  · exact (List.rotate_length l).symm
  -- otherwise the element stands before the turn and at it
  rw [List.head?_rotate hlt] at hm
  have hbefore : 0 < (l.take n).count a := by
    rw [List.count_pos_iff]
    exact List.mem_of_mem_head? (by rwa [List.head?_take, if_neg (Nat.ne_of_gt hpos)])
  have hbehind : 0 < (l.drop n).count a := by
    rw [List.count_pos_iff]
    exact List.mem_of_mem_head? (by rwa [List.head?_drop])
  rw [← List.take_append_drop n l, List.count_append] at hone
  omega

section Positions
variable [DecidableEq α] {labels : List α}

theorem getElem?_eq_some_iff_idxOf (hnodup : labels.Nodup) {n : Nat} {a : α} :
    labels[n]? = some a ↔ a ∈ labels ∧ labels.idxOf a = n := by
  constructor
  · intro h
    obtain ⟨hn, rfl⟩ := List.getElem?_eq_some_iff.1 h
    exact ⟨List.getElem_mem hn, hnodup.idxOf_getElem n hn⟩
  · rintro ⟨hmem, rfl⟩
    exact List.getElem?_idxOf hmem

theorem pairwise_map_idxOf {sub : List α} (hnodup : labels.Nodup) (hsub : sub.Sublist labels) :
    (sub.map labels.idxOf).Pairwise (· < ·) := by
  have hlabels : labels.Pairwise fun a b => labels.idxOf a < labels.idxOf b := by
    apply List.pairwise_iff_getElem.2
    intro i j hi hj hij
    rwa [hnodup.idxOf_getElem i hi, hnodup.idxOf_getElem j hj]
  exact List.pairwise_map.2 (hlabels.sublist hsub)

end Positions

/-! ### Cutting by a property -/

section Cutting
variable {p : α → Bool}

theorem takeWhile_append_cons_of_neg {a : α} (ha : p a = false) (l rest : List α) :
    (l ++ a :: rest).takeWhile p = l.takeWhile p := by
  induction l with
  | nil => rw [List.nil_append, List.takeWhile_cons_of_neg (by simp [ha]), List.takeWhile_nil]
  | cons b l ih => rw [List.cons_append, List.takeWhile_cons, List.takeWhile_cons, ih]

theorem dropWhile_append_of_head {xs ys : List α} (h : ∀ a ∈ ys.head?, ¬ p a) :
    (xs ++ ys).dropWhile p = xs.dropWhile p ++ ys := by
  have hys : ys.dropWhile p = ys := by
    cases ys with
    | nil => rfl
    | cons a ys => exact List.dropWhile_cons_of_neg (h a rfl)
  rw [List.dropWhile_append, hys]
  split
  · rename_i hempty
    rw [List.isEmpty_iff.1 hempty, List.nil_append]
  · rfl

/-- A list is cut in one way only into elements with a property and elements without it. -/
theorem cut_unique {xs ys us vs : List α} (h : xs ++ ys = us ++ vs)
    (hxs : ∀ a ∈ xs, p a = true) (hys : ∀ a ∈ ys, ¬p a = true) (hus : ∀ a ∈ us, p a = true)
    (hvs : ∀ a ∈ vs, ¬p a = true) : xs = us ∧ ys = vs := by
  have hfront : xs = us := by
    have hfilter := congrArg (List.filter p) h
    rwa [List.filter_append, List.filter_append, List.filter_eq_self.2 hxs,
      List.filter_eq_self.2 hus, List.filter_eq_nil_iff.2 hys, List.filter_eq_nil_iff.2 hvs,
      List.append_nil, List.append_nil] at hfilter
  subst hfront
  exact ⟨rfl, List.append_cancel_left h⟩

end Cutting

/-- Leaving out elements before or after a stable sort makes no difference. -/
theorem mergeSort_filter {le : α → α → Bool}
    (trans : ∀ a b c, le a b = true → le b c = true → le a c = true)
    (total : ∀ a b, (le a b || le b a) = true) (keep : α → Bool) (l : List α) :
    (l.filter keep).mergeSort le = (l.mergeSort le).filter keep := by
  induction l with
  | nil => simp
  | cons a l ih =>
    obtain ⟨before, after, hcons, hl, hbefore⟩ := List.mergeSort_cons trans total a l
    cases ha : keep a with
    | false => simp [ha, ih, hcons, hl]
    | true =>
      obtain ⟨front, back, hcons', hl', hfront⟩ :=
        List.mergeSort_cons trans total a (l.filter keep)
      have hafter : ∀ b ∈ after, le a b = true := by
        have sorted := List.pairwise_mergeSort trans total (a :: l)
        rw [hcons, List.pairwise_append, List.pairwise_cons] at sorted
        exact sorted.2.1.1
      have hback : ∀ b ∈ back, le a b = true := by
        have sorted := List.pairwise_mergeSort trans total (a :: l.filter keep)
        rw [hcons', List.pairwise_append, List.pairwise_cons] at sorted
        exact sorted.2.1.1
      have hsame : front ++ back = before.filter keep ++ after.filter keep := by
        rw [← hl', ih, hl, List.filter_append]
      -- in both lists `a` stands between the elements below it and the others
      obtain ⟨rfl, rfl⟩ := cut_unique (p := fun b => !le a b) hsame hfront
        (fun b hb => by simp [hback b hb])
        (fun b hb => hbefore b (List.mem_filter.1 hb).1)
        (fun b hb => by simp [hafter b (List.mem_filter.1 hb).1])
      rw [List.filter_cons_of_pos ha, hcons', hcons, List.filter_append,
        List.filter_cons_of_pos ha]

/-! ### Images -/

theorem mapM_eq_some_map {f : α → Option β} {g : α → β} {xs : List α}
    (h : ∀ x ∈ xs, f x = some (g x)) : xs.mapM f = some (xs.map g) := by
  induction xs with
  | nil => rfl
  | cons x xs ih =>
    rw [List.mapM_cons, h x List.mem_cons_self, ih fun y hy => h y (List.mem_cons_of_mem _ hy)]
    rfl

theorem mapM_map_eq_some {write : α → β} {read : β → Option α} {xs : List α}
    (h : ∀ x ∈ xs, read (write x) = some x) : (xs.map write).mapM read = some xs := by
  have hmap : xs.mapM (read ∘ write) = some (xs.map id) := mapM_eq_some_map h
  rw [List.mapM_map, hmap, List.map_id]

theorem length_le_length_flatMap {f : α → List β} (h : ∀ a, f a ≠ []) (l : List α) :
    l.length ≤ (l.flatMap f).length := by
  induction l with
  | nil => exact Nat.le_refl 0
  | cons a l ih =>
    have := List.length_pos_of_ne_nil (h a)
    rw [List.flatMap_cons, List.length_append, List.length_cons]
    omega

/-- Among pairs without repeated keys, the last one with a key is the only one. -/
theorem find?_reverse_eq_some_iff [DecidableEq α] {pairs : List (α × β)} {a : α} {b : β}
    (hnodup : (pairs.map (·.1)).Nodup) :
    (pairs.reverse.find? fun e => e.1 = a).map (·.2) = some b ↔ (a, b) ∈ pairs := by
  rw [Option.map_eq_some_iff]
  constructor
  · rintro ⟨⟨k, b⟩, hfind, rfl⟩
    obtain rfl : k = a := by simpa using List.find?_some hfind
    exact List.mem_reverse.1 (List.mem_of_find?_eq_some hfind)
  · intro hmem
    cases hfind : pairs.reverse.find? fun e => e.1 = a with
    | none =>
      have hno := List.find?_eq_none.1 hfind _ (List.mem_reverse.2 hmem)
      simp at hno
    | some e =>
      have hkey : e.1 = a := by simpa using List.find?_some hfind
      have hmem' : e ∈ pairs := List.mem_reverse.1 (List.mem_of_find?_eq_some hfind)
      exact ⟨e, rfl, congrArg Prod.snd (List.inj_on_of_nodup_map hnodup hmem' hmem hkey)⟩

/-- A sum without repetitions is bounded by the sum over any list of its nonzero places. -/
theorem sum_map_le_of_nodup (f : α → Nat) {l : List α} (hl : l.Nodup) :
    ∀ rest : List α, (∀ a ∈ l, f a ≠ 0 → a ∈ rest) → (l.map f).sum ≤ (rest.map f).sum := by
  induction l with
  | nil => exact fun rest _ => Nat.zero_le _
  | cons a l ih =>
    intro rest h
    obtain ⟨ha, hl⟩ := List.nodup_cons.1 hl
    by_cases hzero : f a = 0
    · have hle := ih hl rest fun x hx => h x (List.mem_cons_of_mem _ hx)
      simpa [hzero] using hle
    · obtain ⟨before, after, rfl⟩ := List.append_of_mem (h a List.mem_cons_self hzero)
      have hle := ih hl (before ++ after) fun x hx hne => by
        have hmem := h x (List.mem_cons_of_mem _ hx) hne
        have hxa : x ≠ a := by
          rintro rfl
          exact ha hx
        simpa [hxa] using hmem
      simp only [List.map_append, List.sum_append, List.map_cons, List.sum_cons] at hle ⊢
      omega

end CallAtlas
