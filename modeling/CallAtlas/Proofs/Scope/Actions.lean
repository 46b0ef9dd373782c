import CallAtlas.Proofs.Scope.DepthLimit
/-!
# The loop of a walk

`Acts` carries out the first pending action of a walk, and `Acted` keeps the actions carried out from
the start on. There is one way to carry on until no action is left or the next node lies too deep, and
carrying on comes to an end, where it tells the result of the walk.

The pending actions are nested at any time, which leaves three kinds of turns: `Turns` says what each
of them finds and what it leads to, and what a turn preserves is read off from it.
-/

namespace CallAtlas

/-- Where a walk stands. -/
structure WalkState where
  /-- The actions that are still to be carried out. -/
  pending : List WalkStep
  /-- What is known at this place. -/
  context : ScopeContext

namespace WalkState

/-- Where the walk of an outline starts. -/
def start (module : String) : WalkState := ⟨[.enter 0 0], { module }⟩

/-- The next action is to enter a node that lies too deep. -/
def IsBlocked (maxDepth : Nat) (w : WalkState) : Prop :=
  ∃ n depth rest, w.pending = .enter n depth :: rest ∧ maxDepth < depth

def IsOver (maxDepth : Nat) (w : WalkState) : Prop := w.pending = [] ∨ w.IsBlocked maxDepth

end WalkState

namespace Outline

/-- Carries out the first pending action. -/
inductive Acts (o : Outline) (maxDepth : Nat) : WalkState → WalkState → Prop where
  | exitClass {pending c} : Acts o maxDepth ⟨.exitClass :: pending, c⟩ ⟨pending, c.exitClass⟩
  | exitFunction {pending c} :
      Acts o maxDepth ⟨.exitFunction :: pending, c⟩ ⟨pending, c.exitFunction⟩
  /-- What is below the node is skipped. -/
  | skip {n depth pending c c'} (hdepth : depth ≤ maxDepth) (hvisit : o.visit n c = (c', none)) :
      Acts o maxDepth ⟨.enter n depth :: pending, c⟩ ⟨pending, c'⟩
  | enter {n depth pending c c' leave} (hdepth : depth ≤ maxDepth)
      (hvisit : o.visit n c = (c', some leave)) :
      Acts o maxDepth ⟨.enter n depth :: pending, c⟩
        ⟨((o.children n).map fun child => .enter child (depth + 1)) ++ leave ++ pending, c'⟩

/-- Carries out actions from the start of a walk on, which are on record in order. -/
inductive Acted (o : Outline) (maxDepth : Nat) (module : String) :
    List WalkStep → WalkState → Prop where
  | start : Acted o maxDepth module [] (.start module)
  | next {done v w} (before : Acted o maxDepth module done v) (last : Acts o maxDepth v w) :
      Acted o maxDepth module (done ++ v.pending.take 1) w

variable {o : Outline} {maxDepth : Nat} {module : String} {done : List WalkStep} {v w : WalkState}

/-! ### One action after the other -/

theorem Acts.exists_pending (h : o.Acts maxDepth v w) :
    ∃ action rest, v.pending = action :: rest := by
  cases h <;> exact ⟨_, _, rfl⟩

theorem Acts.unique {x y : WalkState} (hx : o.Acts maxDepth w x) (hy : o.Acts maxDepth w y) :
    x = y := by
  cases hx with
  | exitClass =>
    cases hy
    rfl
  | exitFunction =>
    cases hy
    rfl
  | skip _ hvisit =>
    cases hy with
    | skip _ hsame =>
      cases hvisit.symm.trans hsame
      rfl
    | enter _ hother => cases hvisit.symm.trans hother
  | enter _ hvisit =>
    cases hy with
    | skip _ hother => cases hvisit.symm.trans hother
    | enter _ hsame =>
      cases hvisit.symm.trans hsame
      rfl

theorem exists_acts (h : ¬ w.IsOver maxDepth) : ∃ x, o.Acts maxDepth w x := by
  obtain ⟨pending, c⟩ := w
  cases pending with
  | nil => exact absurd (.inl rfl) h
  | cons action rest =>
    cases action with
    | exitClass => exact ⟨_, .exitClass⟩
    | exitFunction => exact ⟨_, .exitFunction⟩
    | enter n depth =>
      have hdepth : depth ≤ maxDepth :=
        Nat.not_lt.1 fun hdeep => h (.inr ⟨n, depth, rest, rfl, hdeep⟩)
      cases hvisit : o.visit n c with
      | mk c' below =>
        cases below with
        | none => exact ⟨_, .skip hdepth hvisit⟩
        | some leave => exact ⟨_, .enter hdepth hvisit⟩

theorem Acts.walkSteps_eq (h : o.Acts maxDepth v w) (fuel : Nat) :
    o.walkSteps maxDepth (fuel + 1) v.pending v.context =
      o.walkSteps maxDepth fuel w.pending w.context := by
  cases h with
  | exitClass => rfl
  | exitFunction => rfl
  | skip hdepth hvisit => rw [walkSteps, if_neg (Nat.not_lt.2 hdepth), hvisit]
  | enter hdepth hvisit => rw [walkSteps, if_neg (Nat.not_lt.2 hdepth), hvisit]

theorem Acted.walkSteps_eq (h : o.Acted maxDepth module done w) (fuel : Nat) :
    o.walkSteps maxDepth (fuel + done.length) [.enter 0 0] { module } =
      o.walkSteps maxDepth fuel w.pending w.context := by
  induction h generalizing fuel with
  | start => rfl
  | @next done v w before last ih =>
    obtain ⟨action, rest, hpending⟩ := last.exists_pending
    have hlength : fuel + (done ++ v.pending.take 1).length = fuel + 1 + done.length := by
      simp [hpending]
      omega
    rw [hlength, ih, last.walkSteps_eq]

/-! ### Nested actions -/

theorem next_of_visit_none {n : Nat} {c c' : ScopeContext} (h : o.visit n c = (c', none)) :
    o.next n = [] := by
  rw [visit_eq] at h
  rw [next, if_pos]
  by_contra hshows
  rw [if_neg hshows] at h
  cases h

theorem next_of_visit_some {n : Nat} {c c' : ScopeContext} {leave : List WalkStep}
    (h : o.visit n c = (c', some leave)) : o.next n = o.below n ++ leave := by
  rw [visit_eq] at h
  rw [next]
  split at h
  · cases h
  · rename_i hshows
    cases h
    rw [if_neg hshows]

namespace Bracketed

variable {classes functions : List String} {pending : List WalkStep} {n depth : Nat}

theorem of_nil (h : Bracketed o classes functions []) : classes = [] ∧ functions = [] := by
  cases h with
  | nil => exact ⟨rfl, rfl⟩

theorem of_enter (h : Bracketed o classes functions (.enter n depth :: pending)) :
    depth = o.depth n ∧ o.Visited n ∧ classes = o.classesAround n ∧
      functions = o.functionsAround n ∧
      Bracketed o (o.classesAround n) (o.functionsAround n) pending := by
  cases h with
  | enter hvisited hrest => exact ⟨rfl, hvisited, rfl, rfl, hrest⟩

theorem of_exitClass (h : Bracketed o classes functions (.exitClass :: pending)) :
    ∃ outer name, classes = outer ++ [name] ∧ Bracketed o outer functions pending := by
  cases h with
  | exitClass hrest => exact ⟨_, _, rfl, hrest⟩

theorem of_exitFunction (h : Bracketed o classes functions (.exitFunction :: pending)) :
    ∃ outer name, functions = outer ++ [name] ∧ Bracketed o classes outer pending := by
  cases h with
  | exitFunction hrest => exact ⟨_, _, rfl, hrest⟩

end Bracketed

/-- The pending actions leave the classes and functions in force, and what they enter is visited and
has these around it. -/
def Nested (o : Outline) (w : WalkState) : Prop :=
  Bracketed o w.context.classes w.context.functions w.pending

/-- What carrying out an action comes to where the pending ones are nested. Whether what is below a
node is skipped is left to `next`. -/
inductive Turns (o : Outline) (maxDepth : Nat) : WalkState → WalkState → Prop where
  | enter {n pending c} (hdepth : o.depth n ≤ maxDepth) (hvisited : o.Visited n)
      (hclasses : c.classes = o.classesAround n) (hfunctions : c.functions = o.functionsAround n)
      (hrest : Bracketed o (o.classesAround n) (o.functionsAround n) pending) :
      Turns o maxDepth ⟨.enter n (o.depth n) :: pending, c⟩
        ⟨o.next n ++ pending, (o.visit n c).1⟩
  | exitClass {pending c outer name} (hclasses : c.classes = outer ++ [name])
      (hrest : Bracketed o outer c.functions pending) :
      Turns o maxDepth ⟨.exitClass :: pending, c⟩ ⟨pending, { c with classes := outer }⟩
  | exitFunction {pending c outer name} (hfunctions : c.functions = outer ++ [name])
      (hrest : Bracketed o c.classes outer pending) :
      Turns o maxDepth ⟨.exitFunction :: pending, c⟩ ⟨pending, { c with functions := outer }⟩

theorem Acts.turns (h : o.Acts maxDepth v w) (hv : o.Nested v) : o.Turns maxDepth v w := by
  cases h with
  | @exitClass pending c =>
    obtain ⟨outer, name, hclasses, hrest⟩ := hv.of_exitClass
    have hleft : c.exitClass = { c with classes := outer } := by
      rw [ScopeContext.exitClass, hclasses, List.dropLast_concat]
    rw [hleft]
    exact .exitClass hclasses hrest
  | @exitFunction pending c =>
    obtain ⟨outer, name, hfunctions, hrest⟩ := hv.of_exitFunction
    have hleft : c.exitFunction = { c with functions := outer } := by
      rw [ScopeContext.exitFunction, hfunctions, List.dropLast_concat]
    rw [hleft]
    exact .exitFunction hfunctions hrest
  | @skip n depth pending c c' hdepth hvisit =>
    obtain ⟨rfl, hvisited, hclasses, hfunctions, hrest⟩ := hv.of_enter
    have hturn := Turns.enter hdepth hvisited hclasses hfunctions hrest
    rwa [next_of_visit_none hvisit, hvisit] at hturn
  | @enter n depth pending c c' leave hdepth hvisit =>
    obtain ⟨rfl, hvisited, hclasses, hfunctions, hrest⟩ := hv.of_enter
    have hturn := Turns.enter hdepth hvisited hclasses hfunctions hrest
    rwa [next_of_visit_some hvisit, hvisit] at hturn

namespace WellNumbered

variable (h : WellNumbered o)
include h

theorem nested_of_turns (hturn : o.Turns maxDepth v w) : o.Nested w := by
  cases hturn with
  | @enter n pending c hdepth hvisited hclasses hfunctions hrest =>
    rw [Nested, visit_eq, hclasses, hfunctions]
    exact h.bracketed_next hvisited hrest
  | exitClass hclasses hrest => exact hrest
  | exitFunction hfunctions hrest => exact hrest

theorem work_lt_of_turns (hturn : o.Turns maxDepth v w) : o.work w.pending < o.work v.pending := by
  cases hturn with
  | @enter n pending => exact h.work_next_lt n _ pending
  | exitClass => simp [work]
  | exitFunction => simp [work]

theorem nested_of_acted (hacted : o.Acted maxDepth module done w) : o.Nested w := by
  induction hacted with
  | start => exact bracketed_root
  | next before last ih => exact h.nested_of_turns (last.turns ih)

/-! ### The end of a walk -/

theorem acc_of_nested (hv : o.Nested v) : Acc (fun w v => o.Acts maxDepth v w) v := by
  -- by induction on the bound on the actions that the pending ones lead to
  induction hn : o.work v.pending using Nat.strongRecOn generalizing v with
  | _ n ih =>
    refine Acc.intro v fun w hw => ?_
    have hturn := hw.turns hv
    exact ih (o.work w.pending) (hn ▸ h.work_lt_of_turns hturn) (h.nested_of_turns hturn) rfl

/-- Every walk can be carried on until it is over. -/
theorem exists_isOver (hacted : o.Acted maxDepth module done v) :
    ∃ done w, o.Acted maxDepth module done w ∧ w.IsOver maxDepth := by
  have hacc : Acc (fun w v => o.Acts maxDepth v w) v := h.acc_of_nested (h.nested_of_acted hacted)
  induction hacc generalizing done with
  | intro v _ ih =>
    by_cases hover : v.IsOver maxDepth
    · exact ⟨done, v, hacted, hover⟩
    · obtain ⟨w, hw⟩ := exists_acts (o := o) hover
      exact ih w hw (hacted.next hw)

theorem length_add_work_le (hacted : o.Acted maxDepth module done w) :
    done.length + o.work w.pending ≤ 2 * o.size := by
  induction hacted with
  | start =>
    rw [List.length_nil, Nat.zero_add]
    exact h.work_root
  | @next done v w before last ih =>
    have hless := h.work_lt_of_turns (last.turns (h.nested_of_acted before))
    have hlength := List.length_take_le 1 v.pending
    rw [List.length_append]
    omega

theorem walk_of_pending_nil (hacted : o.Acted maxDepth module done w) (hpending : w.pending = []) :
    o.walk maxDepth module = .ok w.context.result := by
  have hwork := h.length_add_work_le hacted
  obtain ⟨fuel, hfuel⟩ : ∃ fuel, 2 * o.size = fuel + done.length :=
    ⟨2 * o.size - done.length, by omega⟩
  rw [walk, hfuel, hacted.walkSteps_eq, hpending, walkSteps]
  rfl

theorem walk_of_isBlocked (hacted : o.Acted maxDepth module done w)
    (hblocked : w.IsBlocked maxDepth) : o.walk maxDepth module = .error ⟨maxDepth⟩ := by
  obtain ⟨n, depth, rest, hpending, hdeep⟩ := hblocked
  have hwork := h.length_add_work_le hacted
  -- the node that is not entered counts as work, so that fuel is left for it
  have hpos := h.work_next_lt n depth rest
  rw [hpending] at hwork
  obtain ⟨fuel, hfuel⟩ : ∃ fuel, 2 * o.size = fuel + 1 + done.length :=
    ⟨2 * o.size - done.length - 1, by omega⟩
  rw [walk, hfuel, hacted.walkSteps_eq, hpending, walkSteps, if_pos hdeep]
  rfl

end WellNumbered

end Outline

end CallAtlas
