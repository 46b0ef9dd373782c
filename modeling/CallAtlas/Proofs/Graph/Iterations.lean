import CallAtlas.Proofs.Graph.ChildlessNodes
import CallAtlas.Proofs.Graph.ClosingEdges
import Mathlib.Logic.ExistsUnique
import Mathlib.Logic.Relation
/-!
# The iterations of a search

A search tries one root after the other, and below a root it takes step after step until the path is
empty. `Iterates` is one iteration of either loop, and `Run` keeps a record of the nodes that have
been pushed and of the edges that have been examined. What is on record is told by the state: the
nodes pushed are the visited ones, and an edge of a visited node has been examined unless it is
pending. So nothing is recorded twice, and in the end nothing is missing.
-/

namespace CallAtlas.Cycle.Search

open Relation (ReflTransGen)

variable {α : Type} [Ord α]

/-- Where the two loops of a search stand. -/
structure Loop (α : Type) [Ord α] where
  /-- The roots that have not been tried, in order. -/
  roots : List α
  /-- The state of the search. -/
  state : Search α

/-- The edge that the next step examines, if there is one. -/
def nextEdge (s : Search α) : List (α × α) :=
  match s.path with
  | ⟨a, b :: _⟩ :: _ => [(a, b)]
  | _ => []

/-- The nodes by which the path has grown. -/
def pushed (s t : Search α) : List α := t.nodes.take (t.nodes.length - s.nodes.length)

/-- A node to which edges lead from a root. -/
def Reaches (g : Adjacency α) (a : α) : Prop :=
  ∃ r ∈ g.roots, ReflTransGen (fun x y => y ∈ g.next x) r a

variable [Std.TransOrd α]

/-- One iteration: the next root is tried when the path is empty, and a step is taken when it is
not. -/
inductive Iterates (g : Adjacency α) : Loop α → Loop α → Prop where
  /-- The root has been visited before. -/
  | pass {s a rest} (hpath : s.path = []) (ha : a ∈ s.visited) :
      Iterates g ⟨a :: rest, s⟩ ⟨rest, s⟩
  | root {s a rest} (hpath : s.path = []) (ha : a ∉ s.visited) :
      Iterates g ⟨a :: rest, s⟩ ⟨rest, s.enter g a⟩
  | step {s roots} (hpath : s.path ≠ []) : Iterates g ⟨roots, s⟩ ⟨roots, s.step g⟩

namespace Loop

/-- Where the search of a graph starts. -/
def start (g : Adjacency α) : Loop α := ⟨(OrderedSet.ofList g.roots).toList, {}⟩

/-- Whether there is nothing left to do. -/
def IsOver (w : Loop α) : Prop := w.roots = [] ∧ w.state.path = []

end Loop

/-- The iterations from the start of a search on, with the nodes that have been pushed and the edges
that have been examined, in order. -/
inductive Run (g : Adjacency α) : List α → List (α × α) → Loop α → Prop where
  | start : Run g [] [] (.start g)
  | next {nodes edges v w} (before : Run g nodes edges v) (last : Iterates g v w) :
      Run g (nodes ++ pushed v.state w.state) (edges ++ v.state.nextEdge) w

variable [Std.LawfulEqOrd α] {g : Adjacency α} {s t : Search α} {v w : Loop α}

/-! ### Examined edges -/

section Edges
variable {visited : OrderedSet α} {onPath onPath' : OrderedMap α Nat} {a b x y : α}
variable {pending : List α} {below : List (Frame α)} {found found' : List (List α)}

omit [Std.TransOrd α] [Std.LawfulEqOrd α] in
theorem examined_leave :
    Examined (⟨visited, onPath', below, found⟩ : Search α) x y ↔
      Examined (⟨visited, onPath, ⟨a, []⟩ :: below, found⟩ : Search α) x y := by
  simp [Examined]

theorem examined_advance (h : Inv g ⟨visited, onPath, ⟨a, b :: pending⟩ :: below, found⟩) :
    Examined (⟨visited, onPath, ⟨a, pending⟩ :: below, found'⟩ : Search α) x y ↔
      Examined (⟨visited, onPath, ⟨a, b :: pending⟩ :: below, found⟩ : Search α) x y ∨
        x = a ∧ y = b := by
  constructor
  · rintro ⟨hx, hpending⟩
    by_cases hxy : x = a ∧ y = b
    · exact .inr hxy
    · refine .inl ⟨hx, fun f hf hfx => ?_⟩
      rcases List.mem_cons.1 hf with rfl | hf
      · have hrest := hpending ⟨a, pending⟩ List.mem_cons_self hfx
        rw [List.mem_cons, not_or]
        exact ⟨fun hyb => hxy ⟨hfx.symm, hyb⟩, hrest⟩
      · exact hpending f (List.mem_cons_of_mem _ hf) hfx
  · rintro (hold | ⟨rfl, rfl⟩)
    · exact hold.advance
    · exact h.examined_next

theorem examined_enter (hy : y ∈ orderedNext g x) (hb : b ∉ s.visited) :
    Examined (s.enter g b) x y ↔ Examined s x y := by
  refine ⟨fun ⟨hx, hpending⟩ => ?_, fun hold => hold.enter hb⟩
  have hxb : x ≠ b := by
    rintro rfl
    exact hpending ⟨x, orderedNext g x⟩ List.mem_cons_self rfl hy
  refine ⟨(mem_visited_enter.1 hx).resolve_left hxb, fun f hf hfx => ?_⟩
  exact hpending f (List.mem_cons_of_mem _ hf) hfx

end Edges

/-! ### The record -/

/-- What a record says of the state of the search. -/
structure Recorded (g : Adjacency α) (nodes : List α) (edges : List (α × α)) (s : Search α) :
    Prop where
  nodup_nodes : nodes.Nodup
  mem_nodes : ∀ a, a ∈ nodes ↔ a ∈ s.visited
  nodup_edges : edges.Nodup
  mem_edges : ∀ x y, (x, y) ∈ edges ↔ y ∈ g.next x ∧ Examined s x y
  reaches : ∀ a ∈ s.visited, Reaches g a

namespace Recorded

variable {nodes : List α} {edges : List (α × α)} {b : α}

theorem enter (h : Recorded g nodes edges s) (hb : b ∉ s.visited) (hreach : Reaches g b) :
    Recorded g (nodes ++ [b]) edges (s.enter g b) where
  nodup_nodes := by
    rw [List.nodup_append]
    refine ⟨h.nodup_nodes, List.nodup_singleton b, ?_⟩
    rintro a ha c hc rfl
    rw [List.mem_singleton.1 hc] at ha
    exact hb ((h.mem_nodes b).1 ha)
  mem_nodes := by
    intro a
    rw [List.mem_append, List.mem_singleton, h.mem_nodes, mem_visited_enter, or_comm]
  nodup_edges := h.nodup_edges
  mem_edges := by
    intro x y
    rw [h.mem_edges]
    refine and_congr_right fun hy => ?_
    exact (examined_enter (mem_orderedNext.2 hy) hb).symm
  reaches := by
    intro a ha
    rcases mem_visited_enter.1 ha with rfl | ha
    · exact hreach
    · exact h.reaches a ha

variable {visited : OrderedSet α} {onPath : OrderedMap α Nat} {a : α}
variable {pending : List α} {below : List (Frame α)} {found found' : List (List α)}

omit [Std.TransOrd α] [Std.LawfulEqOrd α] in
theorem leave (h : Recorded g nodes edges ⟨visited, onPath, ⟨a, []⟩ :: below, found⟩) :
    Recorded g nodes edges ⟨visited, onPath.erase a, below, found⟩ where
  nodup_nodes := h.nodup_nodes
  mem_nodes := h.mem_nodes
  nodup_edges := h.nodup_edges
  mem_edges := fun x y => (h.mem_edges x y).trans (and_congr_right fun _ => examined_leave.symm)
  reaches := h.reaches

theorem advance (h : Recorded g nodes edges ⟨visited, onPath, ⟨a, b :: pending⟩ :: below, found⟩)
    (hinv : Inv g ⟨visited, onPath, ⟨a, b :: pending⟩ :: below, found⟩) :
    Recorded g nodes (edges ++ [(a, b)]) ⟨visited, onPath, ⟨a, pending⟩ :: below, found'⟩ where
  nodup_nodes := h.nodup_nodes
  mem_nodes := h.mem_nodes
  nodup_edges := by
    rw [List.nodup_append]
    refine ⟨h.nodup_edges, List.nodup_singleton _, ?_⟩
    rintro e he c hc rfl
    rw [List.mem_singleton.1 hc] at he
    exact not_examined_next ((h.mem_edges a b).1 he).2
  mem_edges := by
    intro x y
    rw [List.mem_append, h.mem_edges, List.mem_singleton, Prod.mk.injEq, examined_advance hinv,
      and_or_left]
    refine or_congr_right ⟨?_, And.right⟩
    rintro ⟨rfl, rfl⟩
    exact ⟨hinv.mem_next_of_pending, rfl, rfl⟩
  reaches := h.reaches

theorem transition (h : Recorded g nodes edges s) (hinv : Inv g s) (ht : Transition g s t) :
    Recorded g (nodes ++ pushed s t) (edges ++ s.nextEdge) t := by
  cases ht with
  | leave => simpa [pushed, nextEdge, Search.nodes] using h.leave
  | close hpos => simpa [pushed, nextEdge, Search.nodes] using h.advance hinv
  | skip hpos hb => simpa [pushed, nextEdge, Search.nodes] using h.advance hinv
  | @descend visited onPath a b pending below found hpos hb =>
    have hreach : Reaches g b := by
      obtain ⟨r, hr, hpath⟩ := h.reaches a (hinv.visited a List.mem_cons_self)
      exact ⟨r, hr, hpath.tail hinv.mem_next_of_pending⟩
    simpa [pushed, nextEdge, Search.nodes, Search.enter] using (h.advance hinv).enter hb hreach

end Recorded

/-- The end of an examined edge has been visited. -/
theorem Reachable.visited_of_examined (h : Reachable g s) {x y : α} (hy : y ∈ g.next x)
    (hxy : Examined s x y) : y ∈ s.visited := by
  induction h with
  | start => exact absurd hxy.1 (OrderedSet.not_mem_empty x)
  | root hs hpath ha hfresh ih =>
    exact mem_visited_enter.2 (.inr (ih ((examined_enter (mem_orderedNext.2 hy) hfresh).1 hxy)))
  | @step s t hs ht ih =>
    cases ht with
    | leave => exact ih (examined_leave.1 hxy)
    | @close visited onPath a b pending below found start hpos =>
      rcases (examined_advance hs.inv).1 hxy with hold | ⟨rfl, rfl⟩
      · exact ih hold
      · have hpath := List.mem_of_getElem? ((hs.inv.position y _).1 hpos)
        exact hs.inv.visited y (List.mem_reverse.1 hpath)
    | skip hpos hb =>
      rcases (examined_advance hs.inv).1 hxy with hold | ⟨rfl, rfl⟩
      · exact ih hold
      · exact hb
    | descend hpos hb =>
      have hadvanced := (examined_enter (mem_orderedNext.2 hy) hb).1 hxy
      rcases (examined_advance hs.inv).1 hadvanced with hold | ⟨rfl, rfl⟩
      · exact mem_visited_enter.2 (.inr (ih hold))
      · exact mem_visited_enter.2 (.inl rfl)

/-! ### Both loops -/

/-- What holds wherever the loops stand. -/
structure Loop.Sound (g : Adjacency α) (w : Loop α) : Prop where
  reachable : Reachable g w.state
  mem_roots : ∀ a ∈ w.roots, a ∈ g.roots
  tried : ∀ a ∈ g.roots, a ∈ w.roots ∨ a ∈ w.state.visited

theorem Loop.sound_start (g : Adjacency α) : (Loop.start g).Sound g where
  reachable := .start
  mem_roots := fun _ ha => OrderedSet.mem_ofList.1 ha
  tried := fun _ ha => .inl (OrderedSet.mem_ofList.2 ha)

theorem Iterates.sound (h : Iterates g v w) (hv : v.Sound g) : w.Sound g := by
  cases h with
  | @pass s a rest hpath ha =>
    refine ⟨hv.reachable, fun r hr => hv.mem_roots r (List.mem_cons_of_mem a hr), fun r hr => ?_⟩
    rcases hv.tried r hr with hr | hr
    · rcases List.mem_cons.1 hr with rfl | hr
      · exact .inr ha
      · exact .inl hr
    · exact .inr hr
  | @root s a rest hpath ha =>
    refine ⟨hv.reachable.root hpath (hv.mem_roots a List.mem_cons_self) ha,
      fun r hr => hv.mem_roots r (List.mem_cons_of_mem a hr), fun r hr => ?_⟩
    rcases hv.tried r hr with hr | hr
    · rcases List.mem_cons.1 hr with rfl | hr
      · exact .inr (mem_visited_enter.2 (.inl rfl))
      · exact .inl hr
    · exact .inr (mem_visited_enter.2 (.inr hr))
  | @step s roots hpath =>
    have ht : Transition g s (s.step g) := transition_step hpath
    refine ⟨hv.reachable.step ht, hv.mem_roots, fun r hr => ?_⟩
    exact (hv.tried r hr).imp_right (visited_of_transition ht)

omit [Std.TransOrd α] [Std.LawfulEqOrd α] in
theorem nextEdge_of_path_nil (hpath : s.path = []) : s.nextEdge = [] := by
  rw [nextEdge, hpath]

theorem Iterates.recorded {nodes : List α} {edges : List (α × α)} (h : Iterates g v w)
    (hv : v.Sound g) (hrecord : Recorded g nodes edges v.state) :
    Recorded g (nodes ++ pushed v.state w.state) (edges ++ v.state.nextEdge) w.state := by
  cases h with
  | pass hpath ha => simpa [pushed, nextEdge_of_path_nil hpath] using hrecord
  | @root s a rest hpath ha =>
    have hreach : Reaches g a := ⟨a, hv.mem_roots a List.mem_cons_self, .refl⟩
    have hentered := hrecord.enter ha hreach
    simpa [pushed, nextEdge_of_path_nil hpath, Search.nodes, Search.enter] using hentered
  | step hpath => exact hrecord.transition hv.reachable.inv (transition_step hpath)

namespace Run

variable {nodes : List α} {edges : List (α × α)}

theorem sound (h : Run g nodes edges w) : w.Sound g := by
  induction h with
  | start => exact Loop.sound_start g
  | next _ last ih => exact last.sound ih

theorem recorded (h : Run g nodes edges w) : Recorded g nodes edges w.state := by
  induction h with
  | start =>
    exact ⟨List.nodup_nil, fun a => by simp [Loop.start, OrderedSet.not_mem_empty], List.nodup_nil,
      fun x y => by simp [Loop.start, Examined, OrderedSet.not_mem_empty],
      fun a ha => absurd ha (OrderedSet.not_mem_empty a)⟩
  | next before last ih => exact last.recorded before.sound ih

/-- When a run is over, every node to which edges lead from a root has been pushed. -/
theorem visited_of_reaches (h : Run g nodes edges w) (hover : w.IsOver) {a : α}
    (ha : Reaches g a) : a ∈ w.state.visited := by
  obtain ⟨hroots, hpath⟩ := hover
  obtain ⟨r, hr, hsteps⟩ := ha
  induction hsteps with
  | refl =>
    refine (h.sound.tried r hr).resolve_left ?_
    rw [hroots]
    exact List.not_mem_nil
  | tail _ hedge ih =>
    refine h.sound.reachable.visited_of_examined hedge ⟨ih, fun f hf => ?_⟩
    rw [hpath] at hf
    exact absurd hf List.not_mem_nil

theorem mem_edges_iff (h : Run g nodes edges w) (hover : w.IsOver) {a b : α} :
    (a, b) ∈ edges ↔ b ∈ g.next a := by
  rw [h.recorded.mem_edges]
  refine and_iff_left_of_imp fun hb => ?_
  have ha : a ∈ w.state.visited :=
    h.visited_of_reaches hover ⟨a, mem_roots_of_mem_next hb, .refl⟩
  refine ⟨ha, fun f hf => ?_⟩
  rw [hover.2] at hf
  exact absurd hf List.not_mem_nil

theorem mem_nodes_iff (h : Run g nodes edges w) (hover : w.IsOver) {a : α} :
    a ∈ nodes ↔ Reaches g a := by
  rw [h.recorded.mem_nodes]
  exact ⟨h.recorded.reaches a, h.visited_of_reaches hover⟩

end Run

/-! ### The end of a run -/

theorem Reachable.remaining_le_stepBound (h : Reachable g s) : remaining g s ≤ stepBound g := by
  induction h with
  | start => exact remaining_le rfl
  | root hs hpath ha hfresh _ => exact remaining_enter_root_le hpath ha hfresh
  | step hs ht ih =>
    have hless := remaining_transition hs.inv ht
    omega

/-- Fuel beyond what is needed changes nothing. -/
theorem Reachable.run_eq_run {m n : Nat} (hs : Reachable g s) (hm : remaining g s ≤ m)
    (hn : remaining g s ≤ n) : run g m s = run g n s := by
  induction m using Nat.strongRecOn generalizing s n with
  | _ m ih =>
    by_cases hpath : s.path = []
    · rw [run_of_path_nil g m hpath, run_of_path_nil g n hpath]
    · obtain ⟨k, hk, hrun, hstep, hless⟩ := hs.run_step hpath hm
      obtain ⟨l, -, hrun', -, hless'⟩ := hs.run_step hpath hn
      rw [hrun, hrun']
      exact ih k hk hstep hless hless'

/-- What the loops come to from where they stand. -/
def Loop.outcome (g : Adjacency α) (w : Loop α) : Search α :=
  w.roots.foldl (fromRoot g (stepBound g)) (run g (stepBound g) w.state)

theorem Iterates.outcome_eq (h : Iterates g v w) (hv : v.Sound g) :
    w.outcome g = v.outcome g := by
  cases h with
  | pass hpath ha =>
    simp only [Loop.outcome, run_of_path_nil g _ hpath, List.foldl_cons, fromRoot,
      if_pos (OrderedSet.contains_iff.2 ha)]
  | @root s a rest hpath ha =>
    have hcontains : ¬ s.visited.contains a = true := fun h => ha (OrderedSet.contains_iff.1 h)
    simp only [Loop.outcome, run_of_path_nil g _ hpath, List.foldl_cons, fromRoot,
      if_neg hcontains]
  | @step s roots hpath =>
    have hbound := hv.reachable.remaining_le_stepBound
    obtain ⟨k, -, hrun, hstep, hless⟩ := hv.reachable.run_step hpath hbound
    simp only [Loop.outcome, hrun]
    rw [hstep.run_eq_run hless hstep.remaining_le_stepBound]

theorem Run.outcome_eq {nodes : List α} {edges : List (α × α)} (h : Run g nodes edges w) :
    w.outcome g = completed g := by
  induction h with
  | start => simp only [Loop.outcome, Loop.start, run_of_path_nil, completed]
  | next before last ih => exact (last.outcome_eq before.sound).trans ih

theorem Run.cycles_eq {nodes : List α} {edges : List (α × α)} (h : Run g nodes edges w)
    (hover : w.IsOver) : cycles g = w.state.found.reverse := by
  have houtcome := h.outcome_eq
  simp only [Loop.outcome, hover.1, List.foldl_nil, run_of_path_nil g _ hover.2] at houtcome
  rw [Search.cycles_eq, houtcome]

/-- The iterations that are left: every root is still tried. -/
def Loop.left (g : Adjacency α) (w : Loop α) : Nat := w.roots.length + remaining g w.state

theorem Iterates.left_lt (h : Iterates g v w) (hv : v.Sound g) : w.left g < v.left g := by
  cases h with
  | pass hpath ha => simp [Loop.left]
  | @root s a rest hpath ha =>
    have hnode : a ∈ allNodes g :=
      OrderedSet.mem_ofList.2 (List.mem_append_left _ (hv.mem_roots a List.mem_cons_self))
    simp [Loop.left, remaining_enter hnode ha]
  | @step s roots hpath =>
    have hless : remaining g (s.step g) + 1 = remaining g s :=
      remaining_transition hv.reachable.inv (transition_step hpath)
    simp only [Loop.left]
    omega

theorem Loop.Sound.acc (h : v.Sound g) : Acc (fun w v => Iterates g v w) v := by
  induction hn : v.left g using Nat.strongRecOn generalizing v with
  | _ n ih =>
    refine Acc.intro v fun w hw => ?_
    exact ih (w.left g) (hn ▸ hw.left_lt h) (hw.sound h) rfl

omit [Std.LawfulEqOrd α] in
theorem existsUnique_iterates (hover : ¬ v.IsOver) : ∃! w, Iterates g v w := by
  obtain ⟨roots, s⟩ := v
  by_cases hpath : s.path = []
  · cases roots with
    | nil => exact absurd ⟨rfl, hpath⟩ hover
    | cons a rest =>
      by_cases ha : a ∈ s.visited
      · refine ⟨_, .pass hpath ha, fun w hw => ?_⟩
        cases hw with
        | pass => rfl
        | root _ hfresh => exact absurd ha hfresh
        | step hne => exact absurd hpath hne
      · refine ⟨_, .root hpath ha, fun w hw => ?_⟩
        cases hw with
        | pass _ hvisited => exact absurd hvisited ha
        | root => rfl
        | step hne => exact absurd hpath hne
  · refine ⟨_, .step hpath, fun w hw => ?_⟩
    cases hw with
    | pass hnil => exact absurd hnil hpath
    | root hnil => exact absurd hnil hpath
    | step => rfl

/-- Every run can be continued until it is over. -/
theorem Run.exists_isOver {nodes : List α} {edges : List (α × α)} (h : Run g nodes edges v) :
    ∃ nodes edges w, Run g nodes edges w ∧ w.IsOver := by
  have hacc := h.sound.acc
  induction hacc generalizing nodes edges with
  | intro v _ ih =>
    by_cases hover : v.IsOver
    · exact ⟨nodes, edges, v, h, hover⟩
    · obtain ⟨w, hw, -⟩ := existsUnique_iterates (g := g) hover
      exact ih w hw (h.next hw)

end CallAtlas.Cycle.Search

namespace CallAtlas

open Cycle.Search

variable {α : Type} [Ord α] [Std.TransOrd α] [Std.LawfulEqOrd α]

/-- The loops of a search never get stuck and come to an end. At every iteration the positions are
the inverse of the path, so that a cycle can be cut out of it; the path consists of different visited
nodes linked by edges, with some of the successors of each still pending; and without a path there
are no positions. No node is pushed twice and no edge examined twice. In the end the nodes to which
edges lead from a root have been pushed, all edges have been examined, and the cycles are those
found. -/
theorem search_exhausts_graph (g : Adjacency α) :
    Acc (fun w v => Iterates g v w) (.start g) ∧
    (∃ nodes edges w, Run g nodes edges w ∧ w.IsOver) ∧
    ∀ nodes edges w, Run g nodes edges w →
      (∀ a i, w.state.onPath.get? a = some i ↔ w.state.nodes.reverse[i]? = some a) ∧
      (∀ a i, w.state.onPath.get? a = some i →
        i < w.state.path.length ∧ w.state.nodes.reverse.drop i ≠ []) ∧
      w.state.nodes.Nodup ∧ (∀ a ∈ w.state.nodes, a ∈ w.state.visited) ∧
      w.state.nodes.IsChain (fun a b => a ∈ g.next b) ∧
      (∀ f ∈ w.state.path, f.pending <:+ orderedNext g f.node) ∧
      (w.state.path = [] → w.state.onPath = ∅) ∧
      nodes.Nodup ∧ edges.Nodup ∧
      (¬ w.IsOver → ∃! x, Iterates g w x) ∧
      (w.IsOver →
        (∀ a, a ∈ nodes ↔ Reaches g a) ∧ (∀ a b, (a, b) ∈ edges ↔ b ∈ g.next a) ∧
        cycles g = w.state.found.reverse) := by
  refine ⟨(Loop.sound_start g).acc, Run.start.exists_isOver, fun nodes edges w h => ?_⟩
  have hinv : Inv g w.state := h.sound.reachable.inv
  have hrecord := h.recorded
  have hrange : ∀ a i, w.state.onPath.get? a = some i → i < w.state.nodes.reverse.length := by
    intro a i hi
    exact (List.getElem?_eq_some_iff.1 ((hinv.position a i).1 hi)).1
  have hempty : w.state.path = [] → w.state.onPath = ∅ := by
    intro hpath
    apply OrderedMap.ext_of_get?
    intro a
    rw [OrderedMap.get?_empty]
    exact hinv.get?_eq_none (by simp [Cycle.Search.nodes, hpath])
  refine ⟨hinv.position, ?_, hinv.nodup, hinv.visited, hinv.linked, hinv.pending, hempty,
    hrecord.nodup_nodes, hrecord.nodup_edges, existsUnique_iterates, fun hover => ?_⟩
  · intro a i hi
    have hlt := hrange a i hi
    refine ⟨by simpa [Cycle.Search.nodes] using hlt, ?_⟩
    exact mt List.drop_eq_nil_iff.1 (Nat.not_le.2 hlt)
  · exact ⟨fun a => h.mem_nodes_iff hover, fun a b => h.mem_edges_iff hover, h.cycles_eq hover⟩

/-- Two nodes that lead to each other, one of them also to itself. -/
def loopedPair : Adjacency Nat := .ofRows (.ofList [(1, [2]), (2, [1, 2])])

theorem search_exhausts_graph_loopedPair :
    ∃ w, Run loopedPair [1, 2] [(1, 2), (2, 1), (2, 2)] w ∧ w.IsOver ∧
      (∀ a, a ∈ [1, 2] ↔ Reaches loopedPair a) ∧ cycles loopedPair = [[1, 2, 1], [2, 2]] := by
  have hentered : Run loopedPair _ _ ⟨[2], enter loopedPair {} 1⟩ :=
    .next .start (.root rfl (by decide))
  have hpushed := hentered.next (.step (by decide))
  have hclosed := (hpushed.next (.step (by decide))).next (.step (by decide))
  have hleft := (hclosed.next (.step (by decide))).next (.step (by decide))
  have hrun : Run loopedPair [1, 2] [(1, 2), (2, 1), (2, 2)] _ := hleft.next (.pass rfl (by decide))
  obtain ⟨-, -, hruns⟩ := search_exhausts_graph loopedPair
  obtain ⟨-, -, -, -, -, -, -, -, -, -, hover⟩ := hruns _ _ _ hrun
  obtain ⟨hnodes, -, hcycles⟩ := hover ⟨rfl, rfl⟩
  exact ⟨_, hrun, ⟨rfl, rfl⟩, hnodes, hcycles.trans (by decide)⟩

end CallAtlas
