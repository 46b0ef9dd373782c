import CallAtlas.Graph.Cycle
import Mathlib.Data.List.Infix
import Mathlib.Data.List.Rotate
/-!
# The edges of closed paths

The edges of a path `c` are its consecutive pairs, `[x, y] <:+: c`, and its closing edge is the last
of them, `[x, y] <:+ c`. A rotation of a closed path keeps its edges, and so does
`canonicalRotation`.
-/

namespace CallAtlas

variable {α : Type} {x y a : α} {l : List α}

theorem pair_suffix_concat : [x, y] <:+ l ++ [a] ↔ l.getLast? = some x ∧ y = a := by
  rw [show [x, y] = [x] ++ [y] from rfl, List.suffix_concat_iff]
  constructor
  · rintro (h | ⟨t, ht, hsuffix⟩)
    · simp at h
    · obtain ⟨rfl, hya⟩ := List.append_inj' ht rfl
      obtain ⟨before, rfl⟩ := hsuffix
      exact ⟨List.getLast?_concat, by simpa using hya⟩
  · rintro ⟨hlast, rfl⟩
    obtain ⟨before, rfl⟩ := List.getLast?_eq_some_iff.1 hlast
    exact .inr ⟨[x], rfl, before, rfl⟩

theorem pair_infix_concat :
    [x, y] <:+: l ++ [a] ↔ l.getLast? = some x ∧ y = a ∨ [x, y] <:+: l := by
  rw [List.infix_concat_iff, pair_suffix_concat]

theorem pair_infix_cons :
    [x, y] <:+: a :: l ↔ a = x ∧ l.head? = some y ∨ [x, y] <:+: l := by
  rw [List.infix_cons_iff, List.cons_prefix_cons, eq_comm (a := x)]
  cases l with
  | nil => simp
  | cons b l => simp [eq_comm (a := y)]

/-- The closed path around the nodes of a list. -/
def closeUp (l : List α) : List α := l ++ l.take 1

theorem closeUp_cons (a : α) (l : List α) : closeUp (a :: l) = a :: l ++ [a] := rfl

theorem closeUp_dropLast {c : List α} (hlength : 2 ≤ c.length) (hclosed : c.head? = c.getLast?) :
    closeUp c.dropLast = c := by
  match c, hlength with
  | a :: b :: rest, _ =>
    obtain ⟨middle, z, hmiddle⟩ := List.eq_nil_or_concat' (b :: rest) |>.resolve_left (by simp)
    rw [hmiddle] at hclosed ⊢
    have hza : a = z := by
      rw [← List.cons_append, List.getLast?_concat] at hclosed
      exact Option.some.inj hclosed
    subst hza
    rw [← List.cons_append, List.dropLast_concat, closeUp_cons]

theorem pair_infix_closeUp_rotate (l : List α) (n : Nat) :
    [x, y] <:+: closeUp (l.rotate n) ↔ [x, y] <:+: closeUp l := by
  induction n generalizing l with
  | zero => rw [List.rotate_zero]
  | succ n ih =>
    match l with
    | [] => rw [List.rotate_nil]
    | [a] => rw [List.rotate_singleton]
    | a :: b :: rest =>
      -- the edge from `a` to `b` is the first one before the turn and the last one after it
      have hlast : (b :: (rest ++ [a])).getLast? = some a := by
        rw [← List.cons_append, List.getLast?_concat]
      rw [List.rotate_cons_succ, ih, closeUp_cons, List.cons_append, List.cons_append,
        closeUp_cons, pair_infix_concat, pair_infix_cons (a := a)]
      simp [hlast, eq_comm]

theorem pair_infix_of_isRotated {c d : List α} (hc : 2 ≤ c.length ∧ c.head? = c.getLast?)
    (hd : 2 ≤ d.length ∧ d.head? = d.getLast?) (h : c.dropLast.IsRotated d.dropLast)
    (hxy : [x, y] <:+: c) : [x, y] <:+: d := by
  obtain ⟨n, hn⟩ := h
  rw [← closeUp_dropLast hd.1 hd.2, ← hn, pair_infix_closeUp_rotate,
    closeUp_dropLast hc.1 hc.2]
  exact hxy

section Canonical
variable [Ord α]

theorem smallestIndex_le (l : List α) : smallestIndex l ≤ l.length := by
  induction l with
  | nil => exact Nat.le_refl 0
  | cons a rest ih =>
    rw [smallestIndex, List.length_cons]
    split <;> omega

theorem canonicalRotation_eq {c : List α} (hlength : 2 ≤ c.length) :
    canonicalRotation c = closeUp (c.dropLast.rotate (smallestIndex c.dropLast)) := by
  have hopen : c.dropLast.isEmpty = false := by
    rw [List.isEmpty_eq_false_iff, ← List.length_pos_iff, List.length_dropLast]
    omega
  simp only [canonicalRotation, hopen, List.rotate_eq_drop_append_take (smallestIndex_le _)]
  rfl

/-- Turning a closed path to its smallest node keeps its edges. -/
theorem pair_infix_canonicalRotation {c : List α} (hlength : 2 ≤ c.length)
    (hclosed : c.head? = c.getLast?) : [x, y] <:+: canonicalRotation c ↔ [x, y] <:+: c := by
  rw [canonicalRotation_eq hlength, pair_infix_closeUp_rotate, closeUp_dropLast hlength hclosed]

/-- Cycles with different canonical rotations are all kept. -/
theorem dedupAfter_eq_self [DecidableEq α] {cs seen : List (List α)}
    (hseen : ∀ c ∈ cs, canonicalRotation c ∉ seen)
    (hcs : cs.Pairwise fun c d => canonicalRotation c ≠ canonicalRotation d) :
    dedupAfter seen cs = cs := by
  induction cs generalizing seen with
  | nil => rfl
  | cons c rest ih =>
    obtain ⟨hc, hrest⟩ := List.pairwise_cons.1 hcs
    rw [dedupAfter, if_neg (hseen c List.mem_cons_self), ih _ hrest]
    intro d hd hmem
    rcases List.mem_cons.1 hmem with heq | hmem
    · exact hc d hd heq.symm
    · exact hseen d (List.mem_cons_of_mem _ hd) hmem

end Canonical

end CallAtlas
