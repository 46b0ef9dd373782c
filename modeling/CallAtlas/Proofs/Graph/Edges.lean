import CallAtlas.Graph.Digraph
import CallAtlas.Proofs.Ordered.Extensionality
/-!
# Keys and edges of directed graphs

A graph is given by its keys and its edges. Adding a key adds no edge, and adding an edge adds its
source as a key.
-/

namespace CallAtlas

namespace Digraph

variable {α : Type} [Ord α] [Std.LawfulEqOrd α] {g : Digraph α} {a b x y : α}

theorem mem_edges_iff : (x, y) ∈ g.edges ↔ ∃ s, g.successors? x = some s ∧ y ∈ s := by
  simp only [edges, List.mem_flatMap, List.mem_map, Prod.mk.injEq]
  constructor
  · rintro ⟨⟨k, s⟩, hmem, z, hz, rfl, rfl⟩
    exact ⟨s, OrderedMap.mem_entries_iff.1 hmem, hz⟩
  · rintro ⟨s, hs, hy⟩
    exact ⟨(x, s), OrderedMap.mem_entries_iff.2 hs, y, hy, rfl, rfl⟩

theorem mem_edges_iff_successors : (x, y) ∈ g.edges ↔ y ∈ g.successors x := by
  rw [mem_edges_iff, successors]
  cases g.successors? x with
  | none => simp
  | some s => simp [OrderedSet.mem_toList]

theorem mem_keys_iff : x ∈ g.keys ↔ ∃ s, g.successors? x = some s := OrderedMap.mem_keys_iff

theorem mem_edges_of_mem_entries {s : OrderedSet α} (hs : (x, s) ∈ g.rows.entries) (hy : y ∈ s) :
    (x, y) ∈ g.edges :=
  mem_edges_iff.2 ⟨s, OrderedMap.mem_entries_iff.1 hs, hy⟩

omit [Std.LawfulEqOrd α] in
/-- The edges are ordered by source and then by destination. -/
theorem pairwise_edges (g : Digraph α) : g.edges.Pairwise fun e f =>
    compare e.1 f.1 = .lt ∨ e.1 = f.1 ∧ compare e.2 f.2 = .lt := by
  apply List.pairwise_flatMap.2
  constructor
  · rintro ⟨a, s⟩ _
    rw [List.pairwise_map]
    apply s.ascending.imp
    intro b c hbc
    exact .inr ⟨rfl, hbc⟩
  · apply g.rows.ascending.imp
    rintro ⟨a, s⟩ ⟨b, t⟩ hab e he f hf
    obtain ⟨c, hc, rfl⟩ := List.mem_map.1 he
    obtain ⟨d, hd, rfl⟩ := List.mem_map.1 hf
    exact .inl hab

/-- Graphs with the same edges have them in the same order. -/
theorem edges_ext [Std.TransOrd α] {h : Digraph α} (hmem : ∀ e, e ∈ g.edges ↔ e ∈ h.edges) :
    g.edges = h.edges := by
  have hirrefl : Std.Irrefl fun e f : α × α =>
      compare e.1 f.1 = .lt ∨ e.1 = f.1 ∧ compare e.2 f.2 = .lt := ⟨fun e => by simp⟩
  have hantisymm : Std.Antisymm fun e f : α × α =>
      compare e.1 f.1 = .lt ∨ e.1 = f.1 ∧ compare e.2 f.2 = .lt := by
    refine ⟨fun e f hef hfe => ?_⟩
    rcases hef with hef | ⟨heq, hef⟩
    · rcases hfe with hfe | ⟨heq, -⟩
      · exact absurd hfe (Std.OrientedCmp.not_lt_of_lt hef)
      · exact absurd heq.symm (ne_of_compare_lt hef)
    · rcases hfe with hfe | ⟨-, hfe⟩
      · exact absurd heq.symm (ne_of_compare_lt hfe)
      · exact absurd hfe (Std.OrientedCmp.not_lt_of_lt hef)
  exact g.pairwise_edges.eq_of_mem_iff h.pairwise_edges hmem

/-- Graphs with the same keys and the same edges are equal. -/
theorem ext_of_mem [Std.TransOrd α] {h : Digraph α} (hkeys : ∀ a, a ∈ g.keys ↔ a ∈ h.keys)
    (hedges : ∀ a b, (a, b) ∈ g.edges ↔ (a, b) ∈ h.edges) : g = h := by
  refine Digraph.ext (OrderedMap.ext_of_get? fun a => ?_)
  show g.successors? a = h.successors? a
  have hkey := hkeys a
  rw [mem_keys_iff, mem_keys_iff] at hkey
  have hedge := hedges a
  simp only [mem_edges_iff] at hedge
  cases hs : g.successors? a with
  | none =>
    cases ht : h.successors? a with
    | none => rfl
    | some t => simp [hs, ht] at hkey
  | some s =>
    cases ht : h.successors? a with
    | none => simp [hs, ht] at hkey
    | some t =>
      simp only [hs, ht, Option.some.injEq, exists_eq_left'] at hedge
      rw [OrderedSet.ext_of_mem hedge]

omit [Std.LawfulEqOrd α] in
@[simp] theorem edges_empty : (∅ : Digraph α).edges = [] := rfl

omit [Std.LawfulEqOrd α] in
@[simp] theorem keys_empty : (∅ : Digraph α).keys = [] := rfl

variable [Std.TransOrd α]

/-- A graph is that of its successor lists. -/
theorem ofRows_toRows (g : Digraph α) : ofRows g.toRows = g := by
  apply Digraph.ext
  apply OrderedMap.ext
  show (g.rows.entries.map _).map _ = g.rows.entries
  rw [List.map_map]
  apply (List.map_congr_left (g := id) _).trans (List.map_id _)
  rintro ⟨a, s⟩ -
  exact congrArg (Prod.mk a) s.ofList_toList

theorem successors?_addKey :
    (g.addKey a).successors? x = if compare x a = .eq then some ((g.successors? a).getD ∅)
      else g.successors? x := by
  split
  · rename_i h
    obtain rfl := Std.LawfulEqCmp.compare_eq_iff_eq.1 h
    exact OrderedMap.get?_upsert_self _ _ _
  · rename_i h
    exact OrderedMap.get?_upsert_ne (fun heq => h (Std.LawfulEqCmp.compare_eq_iff_eq.2 heq)) _

theorem successors?_addEdge :
    (g.addEdge a b).successors? x =
      if compare x a = .eq then some (((g.successors? a).getD ∅).insert b)
      else g.successors? x := by
  split
  · rename_i h
    obtain rfl := Std.LawfulEqCmp.compare_eq_iff_eq.1 h
    exact OrderedMap.get?_upsert_self _ _ _
  · rename_i h
    exact OrderedMap.get?_upsert_ne (fun heq => h (Std.LawfulEqCmp.compare_eq_iff_eq.2 heq)) _

theorem mem_keys_addKey : x ∈ (g.addKey a).keys ↔ x ∈ g.keys ∨ x = a := by
  rw [mem_keys_iff, mem_keys_iff, successors?_addKey]
  by_cases h : x = a
  · simp [h]
  · simp [h]

theorem mem_edges_addKey : (x, y) ∈ (g.addKey a).edges ↔ (x, y) ∈ g.edges := by
  rw [mem_edges_iff, mem_edges_iff, successors?_addKey]
  by_cases h : x = a
  · subst h
    cases g.successors? x <;> simp
  · simp [h]

theorem mem_keys_addEdge : x ∈ (g.addEdge a b).keys ↔ x ∈ g.keys ∨ x = a := by
  rw [mem_keys_iff, mem_keys_iff, successors?_addEdge]
  by_cases h : x = a
  · simp [h]
  · simp [h]

theorem mem_edges_addEdge :
    (x, y) ∈ (g.addEdge a b).edges ↔ (x, y) ∈ g.edges ∨ x = a ∧ y = b := by
  rw [mem_edges_iff, mem_edges_iff, successors?_addEdge]
  by_cases h : x = a
  · subst h
    cases g.successors? x <;> simp [or_comm]
  · simp [h]

theorem mem_edges_foldl_addEdge (targets : List α) :
    (x, y) ∈ (targets.foldl (fun g t => g.addEdge a t) g).edges ↔
      (x, y) ∈ g.edges ∨ x = a ∧ y ∈ targets := by
  induction targets generalizing g with
  | nil => simp
  | cons t targets ih =>
    rw [List.foldl_cons, ih, mem_edges_addEdge, List.mem_cons, or_assoc, and_or_left]

theorem mem_keys_foldl_addEdge (targets : List α) :
    x ∈ (targets.foldl (fun g t => g.addEdge a t) g).keys ↔
      x ∈ g.keys ∨ x = a ∧ ∃ t, t ∈ targets := by
  induction targets generalizing g with
  | nil => simp
  | cons t targets ih =>
    have hsome : ∃ s, s ∈ t :: targets := ⟨t, List.mem_cons_self⟩
    rw [List.foldl_cons, ih, mem_keys_addEdge, and_iff_left hsome, or_assoc]
    exact or_congr_right (or_iff_left_of_imp And.left)

theorem mem_edges_ofEdges {edges : List (α × α)} :
    (x, y) ∈ (ofEdges edges).edges ↔ (x, y) ∈ edges := by
  have hfold : ∀ g : Digraph α, (x, y) ∈ (edges.foldl (fun g e => g.addEdge e.1 e.2) g).edges ↔
      (x, y) ∈ g.edges ∨ (x, y) ∈ edges := by
    induction edges with
    | nil => simp
    | cons e edges ih =>
      intro g
      rw [List.foldl_cons, ih, mem_edges_addEdge, List.mem_cons, or_assoc, Prod.ext_iff]
  exact (hfold ∅).trans (or_iff_right List.not_mem_nil)

theorem mem_nodes : x ∈ g.nodes ↔ x ∈ g.keys ∨ ∃ a, (a, x) ∈ g.edges := by
  have hfold : ∀ (rows : List (α × OrderedSet α)) (nodes : OrderedSet α),
      x ∈ rows.foldl (fun nodes row => nodes.union row.2) nodes ↔
        x ∈ nodes ∨ ∃ row ∈ rows, x ∈ row.2 := by
    intro rows
    induction rows with
    | nil => simp
    | cons row rows ih =>
      intro nodes
      have hunion : x ∈ nodes.union row.2 ↔ x ∈ row.2 ∨ x ∈ nodes := OrderedSet.mem_foldl_insert
      rw [List.foldl_cons, ih, hunion, or_comm (a := x ∈ row.2), or_assoc]
      simp
  apply (hfold g.rows.entries (.ofList g.keys)).trans
  rw [OrderedSet.mem_ofList]
  apply or_congr_right
  constructor
  · rintro ⟨⟨a, s⟩, hrow, hx⟩
    exact ⟨a, mem_edges_of_mem_entries hrow hx⟩
  · rintro ⟨a, hedge⟩
    obtain ⟨s, hs, hx⟩ := mem_edges_iff.1 hedge
    exact ⟨(a, s), OrderedMap.mem_entries_iff.2 hs, hx⟩

/-- Both ends of an edge are nodes. -/
theorem mem_nodes_of_mem_edges (h : (x, y) ∈ g.edges) : x ∈ g.nodes ∧ y ∈ g.nodes := by
  obtain ⟨s, hs, _⟩ := mem_edges_iff.1 h
  exact ⟨mem_nodes.2 (.inl (mem_keys_iff.2 ⟨s, hs⟩)), mem_nodes.2 (.inr ⟨x, h⟩)⟩

end Digraph

end CallAtlas
