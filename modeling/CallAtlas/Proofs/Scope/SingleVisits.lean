import CallAtlas.Proofs.Scope.Actions
import Mathlib.Data.List.TakeWhile
import Mathlib.Logic.ExistsUnique
import Mathlib.Logic.Relation
/-!
# Every node is entered once

A walk follows the numbers of children without a record of where it has been. In a tree this is enough:
what has been entered and what the pending actions still lead to make up the order of visits at any
time, so that no node is entered again. The classes and functions entered are those left and those in
force, so that all have been left in the end. Nodes that lie too deep stop a walk before they are
entered.
-/

namespace CallAtlas

open Relation (ReflTransGen)

namespace WalkStep

/-- The node that an action enters. -/
@[simp] def entered? : WalkStep → Option Nat
  | enter n _ => some n
  | _ => none

@[simp] def leavesClass : WalkStep → Bool
  | exitClass => true
  | _ => false

@[simp] def leavesFunction : WalkStep → Bool
  | exitFunction => true
  | _ => false

end WalkStep

/-- The nodes that actions enter, in order. -/
def enteredBy (done : List WalkStep) : List Nat := done.filterMap WalkStep.entered?

theorem enteredBy_append (d e : List WalkStep) : enteredBy (d ++ e) = enteredBy d ++ enteredBy e :=
  List.filterMap_append

namespace Outline

variable {o : Outline} {maxDepth : Nat} {module : String} {done : List WalkStep} {v w : WalkState}

/-- The number of entered nodes to which a name is given, such as the classes among them. -/
def entries (o : Outline) (name? : Construct → Option String) (done : List WalkStep) : Nat :=
  (enteredBy done).countP fun n => (name? (o.construct n)).isSome

theorem entries_append (name? : Construct → Option String) (d e : List WalkStep) :
    o.entries name? (d ++ e) = o.entries name? d + o.entries name? e := by
  rw [entries, enteredBy_append, List.countP_append]
  rfl

theorem entries_enter (name? : Construct → Option String) (n depth : Nat) :
    o.entries name? [.enter n depth] = (name? (o.construct n)).toList.length := by
  cases hname : name? (o.construct n) <;> simp [entries, enteredBy, hname]

/-! ### The account of one action -/

namespace Turns

theorem depth_le (h : o.Turns maxDepth v w) {n : Nat} (hn : n ∈ enteredBy (v.pending.take 1)) :
    o.depth n ≤ maxDepth := by
  cases h with
  | enter hdepth => rwa [List.mem_singleton.1 hn]
  | exitClass => cases hn
  | exitFunction => cases hn

/-- A class that is entered is in force until an action leaves it. -/
theorem classes (h : o.Turns maxDepth v w) :
    o.entries (·.className?) (v.pending.take 1) + v.context.classes.length =
      (v.pending.take 1).countP (·.leavesClass) + w.context.classes.length := by
  cases h with
  | @enter n pending c =>
    rw [visit_eq, List.length_append, Nat.add_comm, ← entries_enter]
    exact (Nat.zero_add _).symm
  | exitClass hclasses => simp [hclasses, entries, enteredBy, Nat.add_comm]
  | exitFunction hfunctions => simp [entries, enteredBy]

theorem functions (h : o.Turns maxDepth v w) :
    o.entries (·.functionName?) (v.pending.take 1) + v.context.functions.length =
      (v.pending.take 1).countP (·.leavesFunction) + w.context.functions.length := by
  cases h with
  | @enter n pending c =>
    rw [visit_eq, List.length_append, Nat.add_comm, ← entries_enter]
    exact (Nat.zero_add _).symm
  | exitClass hclasses => simp [entries, enteredBy]
  | exitFunction hfunctions => simp [hfunctions, entries, enteredBy, Nat.add_comm]

end Turns

/-- What has been entered is no longer ahead, and nothing else is gone. -/
theorem WellNumbered.schedule_of_turns (h : WellNumbered o) (hturn : o.Turns maxDepth v w) :
    enteredBy (v.pending.take 1) ++ o.schedule w.pending = o.schedule v.pending := by
  cases hturn with
  | enter hdepth hvisited => exact (h.schedule_enter hvisited _ _).symm
  | exitClass => rfl
  | exitFunction => rfl

/-! ### The account of a walk -/

/-- What the actions carried out say of where a walk stands. -/
structure Accounts (o : Outline) (maxDepth : Nat) (done : List WalkStep) (w : WalkState) : Prop where
  /-- What the pending actions lead to has not been entered. -/
  visits : enteredBy done ++ o.schedule w.pending = o.visitOrder
  depth_le : ∀ n ∈ enteredBy done, o.depth n ≤ maxDepth
  classes : o.entries (·.className?) done = done.countP (·.leavesClass) + w.context.classes.length
  functions :
    o.entries (·.functionName?) done = done.countP (·.leavesFunction) + w.context.functions.length

/-- What a walk has done that was never blocked: it has entered every node outside of hidden ones once,
and has left every class and every function that it entered. -/
structure Finished (o : Outline) (done : List WalkStep) (w : WalkState) : Prop where
  pending : w.pending = []
  entered_once : ∀ n, (enteredBy done).count n = if n < o.size ∧ o.Visited n then 1 else 0
  classes_left : done.countP (·.leavesClass) = o.entries (·.className?) done
  functions_left : done.countP (·.leavesFunction) = o.entries (·.functionName?) done
  classes : w.context.classes = []
  functions : w.context.functions = []

theorem Accounts.entered_eq (h : o.Accounts maxDepth done w) (hpending : w.pending = []) :
    enteredBy done = o.visitOrder := by
  have hvisits := h.visits
  rwa [hpending, schedule, List.flatMap_nil, List.append_nil] at hvisits

namespace WellNumbered

variable (h : WellNumbered o)
include h

theorem accounts (hacted : o.Acted maxDepth module done w) : o.Accounts maxDepth done w := by
  induction hacted with
  | start => exact ⟨schedule_root, by simp [enteredBy], rfl, rfl⟩
  | @next done v w before last ih =>
    have hturn := last.turns (h.nested_of_acted before)
    refine ⟨?visits, ?depth_le, ?classes, ?functions⟩
    case visits =>
      rw [enteredBy_append, List.append_assoc, h.schedule_of_turns hturn]
      exact ih.visits
    case depth_le =>
      intro n hn
      rw [enteredBy_append] at hn
      rcases List.mem_append.1 hn with hn | hn
      · exact ih.depth_le n hn
      · exact hturn.depth_le hn
    case classes =>
      have hbefore := ih.classes
      have hlast := hturn.classes
      rw [entries_append, List.countP_append]
      omega
    case functions =>
      have hbefore := ih.functions
      have hlast := hturn.functions
      rw [entries_append, List.countP_append]
      omega

variable (hacted : o.Acted maxDepth module done w)
include hacted

theorem count_entered_le (n : Nat) : (enteredBy done).count n ≤ 1 := by
  have hnodup := nodup_visitOrder h
  rw [← (h.accounts hacted).visits] at hnodup
  exact List.nodup_iff_count_le_one.1 hnodup.of_append_left n

theorem of_mem_entered {n : Nat} (hn : n ∈ enteredBy done) : n < o.size ∧ o.Visited n := by
  rw [← mem_visitOrder_iff h, ← (h.accounts hacted).visits]
  exact List.mem_append_left _ hn

theorem exists_of_isBlocked (hblocked : w.IsBlocked maxDepth) :
    ∃ n rest, maxDepth < o.depth n ∧ o.visitOrder = enteredBy done ++ n :: rest := by
  obtain ⟨n, depth, rest, hpending, hdeep⟩ := hblocked
  have hnested := h.nested_of_acted hacted
  rw [Nested, hpending] at hnested
  obtain ⟨rfl, hvisited, -⟩ := hnested.of_enter
  refine ⟨n, o.schedule (o.next n ++ rest), hdeep, ?_⟩
  rw [← (h.accounts hacted).visits, hpending, h.schedule_enter hvisited]

theorem pending_nil_of_isOver (hover : w.IsOver maxDepth)
    (hshallow : ∀ n, n < o.size → o.Visited n → o.depth n ≤ maxDepth) : w.pending = [] := by
  refine hover.resolve_right fun hblocked => ?_
  obtain ⟨n, rest, hdeep, hsplit⟩ := h.exists_of_isBlocked hacted hblocked
  have hn : n ∈ o.visitOrder := by simp [hsplit]
  obtain ⟨hsize, hvisited⟩ := (mem_visitOrder_iff h).1 hn
  exact Nat.not_lt.2 (hshallow n hsize hvisited) hdeep

theorem isBlocked_of_isOver (hover : w.IsOver maxDepth) {n : Nat} (hsize : n < o.size)
    (hvisited : o.Visited n) (hdeep : maxDepth < o.depth n) : w.IsBlocked maxDepth := by
  refine hover.resolve_left fun hpending => ?_
  have haccounts := h.accounts hacted
  -- without pending actions the node would have been entered
  have hn : n ∈ enteredBy done := by
    rw [haccounts.entered_eq hpending]
    exact (mem_visitOrder_iff h).2 ⟨hsize, hvisited⟩
  exact Nat.not_lt.2 (haccounts.depth_le n hn) hdeep

theorem entered_of_isBlocked (hblocked : w.IsBlocked maxDepth) :
    enteredBy done = o.visitOrder.takeWhile fun n => o.depth n ≤ maxDepth := by
  have hall : ∀ n ∈ enteredBy done, decide (o.depth n ≤ maxDepth) = true :=
    fun n hn => decide_eq_true ((h.accounts hacted).depth_le n hn)
  obtain ⟨n, rest, hdeep, hsplit⟩ := h.exists_of_isBlocked hacted hblocked
  rw [hsplit, List.takeWhile_append_of_pos hall, List.takeWhile_cons_of_neg (by simpa using hdeep),
    List.append_nil]

theorem finished (hpending : w.pending = []) : o.Finished done w := by
  have haccounts := h.accounts hacted
  have hnested := h.nested_of_acted hacted
  rw [Nested, hpending] at hnested
  obtain ⟨hclasses, hfunctions⟩ := hnested.of_nil
  have hclassCount := haccounts.classes
  have hfunctionCount := haccounts.functions
  rw [hclasses, List.length_nil] at hclassCount
  rw [hfunctions, List.length_nil] at hfunctionCount
  refine ⟨hpending, fun n => ?_, hclassCount.symm, hfunctionCount.symm, hclasses, hfunctions⟩
  rw [haccounts.entered_eq hpending]
  split
  · rename_i hn
    exact List.count_eq_one_of_mem (nodup_visitOrder h) ((mem_visitOrder_iff h).2 hn)
  · rename_i hn
    exact List.count_eq_zero.2 (mt (mem_visitOrder_iff h).1 hn)

end WellNumbered

/-! ### The tree of an outline -/

namespace WellNumbered

variable (h : WellNumbered o)
include h

theorem count_children {p c : Nat} (hc : c ∈ o.children p) : (o.children p).count c = 1 :=
  List.count_eq_one_of_mem ((h.ascending p).imp Nat.ne_of_lt) hc

theorem reachable {n : Nat} (hn : n < o.size) : ReflTransGen (fun p c => c ∈ o.children p) 0 n := by
  induction n using Nat.strong_induction_on with
  | _ n ih =>
    rcases Nat.eq_zero_or_pos n with rfl | hpos
    · exact .refl
    · obtain ⟨p, hp⟩ := h.exists_parent n hpos hn
      have hlt := h.lt_child p n hp
      exact (ih p hlt (Nat.lt_trans hlt hn)).tail hp

end WellNumbered

theorem depth_le_self (n : Nat) : o.depth n ≤ n := by
  induction n using Nat.strong_induction_on with
  | _ n ih =>
    cases hp : o.parent? n with
    | none => simp [depth, ancestors_of_parent?_none hp]
    | some p =>
      have hlt := parent?_lt hp
      have hle := ih p hlt
      rw [depth] at hle
      rw [depth, ancestors_of_parent? hp, List.length_append, List.length_singleton]
      omega

/-- An outline that comes from adding nodes below existing ones is a tree: every node but the root is
among the children of one node, once, and these are numbered in order behind it; and the root leads to
every node. So a walk never gets stuck and comes to an end. It enters no node twice and none that is
hidden, and each with the classes and functions around it in force. Unless a node to be visited lies
too deep, it enters all of them and leaves every class and function again. Otherwise it fails at the
first one that does, behind the nodes that precede it. -/
theorem walk_enters_once (ho : o.Built) :
    -- the tree
    ((∀ c, 0 < c → c < o.size →
        ∃ p, (o.children p).count c = 1 ∧ ∀ q, q ≠ p → c ∉ o.children q) ∧
      (∀ p, 0 ∉ o.children p) ∧ (∀ p, ∀ c ∈ o.children p, p < c ∧ c < o.size) ∧
      (∀ p, (o.children p).Pairwise (· < ·)) ∧
      ∀ n, n < o.size → ReflTransGen (fun p c => c ∈ o.children p) 0 n) ∧
    -- its walks
    ∀ maxDepth module,
      Acc (fun w v => o.Acts maxDepth v w) (.start module) ∧
      (∃ done w, o.Acted maxDepth module done w ∧ w.IsOver maxDepth) ∧
      ∀ done w, o.Acted maxDepth module done w →
        (¬ w.IsOver maxDepth → ∃! x, o.Acts maxDepth w x) ∧
        (∀ n depth rest, w.pending = .enter n depth :: rest → depth = o.depth n ∧
          w.context.classes = o.classesAround n ∧ w.context.functions = o.functionsAround n) ∧
        (∀ n, (enteredBy done).count n ≤ 1) ∧
        (∀ n ∈ enteredBy done, n < o.size ∧ o.Visited n) ∧
        (w.IsOver maxDepth →
          ((∀ n, n < o.size → o.Visited n → o.depth n ≤ maxDepth) →
            o.Finished done w ∧ o.walk maxDepth module = .ok w.context.result) ∧
          ((∃ n, n < o.size ∧ o.Visited n ∧ maxDepth < o.depth n) →
            enteredBy done = o.visitOrder.takeWhile (fun n => o.depth n ≤ maxDepth) ∧
              o.walk maxDepth module = .error ⟨maxDepth⟩)) := by
  have h := ho.wellNumbered
  refine ⟨⟨?_, ?_, ?_, h.ascending, fun n => h.reachable⟩, fun maxDepth module =>
    ⟨h.acc_of_nested bracketed_root, h.exists_isOver .start, fun done w hacted => ?_⟩⟩
  · intro c hpos hc
    obtain ⟨p, hp⟩ := h.exists_parent c hpos hc
    exact ⟨p, h.count_children hp, fun q hq hmem => hq (h.parent_unique q p c hmem hp)⟩
  · intro p hp
    exact Nat.not_lt_zero p (h.lt_child p 0 hp)
  · exact fun p c hc => ⟨h.lt_child p c hc, h.child_lt_size p c hc⟩
  refine ⟨fun hgoes => ?_, fun n depth rest hpending => ?_, h.count_entered_le hacted,
    fun n => h.of_mem_entered hacted, fun hover => ⟨fun hshallow => ?_, ?_⟩⟩
  · obtain ⟨x, hx⟩ := exists_acts (o := o) hgoes
    exact ⟨x, hx, fun y hy => hy.unique hx⟩
  · have hnested := h.nested_of_acted hacted
    rw [Nested, hpending] at hnested
    obtain ⟨hdepth, -, hclasses, hfunctions, -⟩ := hnested.of_enter
    exact ⟨hdepth, hclasses, hfunctions⟩
  · have hpending := h.pending_nil_of_isOver hacted hover hshallow
    exact ⟨h.finished hacted hpending, h.walk_of_pending_nil hacted hpending⟩
  · rintro ⟨n, hsize, hvisited, hdeep⟩
    have hblocked := h.isBlocked_of_isOver hacted hover hsize hvisited hdeep
    exact ⟨h.entered_of_isBlocked hacted hblocked, h.walk_of_isBlocked hacted hblocked⟩

/-- A function one level below the children of the root. -/
def functionBelow : Outline := (root.push 0 .other).push 1 (.functionDef "run")

/-- A walk that admits no more than the children of the root does not enter what is below these. -/
theorem functionBelow_not_entered :
    functionBelow.Built ∧ 2 < functionBelow.size ∧ functionBelow.Visited 2 ∧
      (∀ done w, functionBelow.Acted 1 "app" done w → 2 ∉ enteredBy done) ∧
      functionBelow.walk 1 "app" = .error ⟨1⟩ := by
  have hbuilt : functionBelow.Built := .push (.push .root (by decide)) (by decide)
  have h := hbuilt.wellNumbered
  have hchild : 1 ∈ functionBelow.children 0 := by decide
  have hbelow : 2 ∈ functionBelow.children 1 := by decide
  have hvisited := h.visited_child hbelow (h.visited_child hchild (visited_zero _) rfl) rfl
  refine ⟨hbuilt, by decide, hvisited, fun done w hacted hentered => ?_, rfl⟩
  have hadmitted := (h.accounts hacted).depth_le 2 hentered
  rw [h.depth_child hbelow, h.depth_child hchild, depth_zero] at hadmitted
  omega

/-- A method with a call, and behind its class an import that hides a function. -/
def methodBesideImport : Outline :=
  ((((root.push 0 (.classDef "A")).push 1 (.functionDef "run")).push 2 .call).push 0
    (.importFrom none [])).push 4 (.functionDef "hidden")

theorem walk_enters_once_methodBesideImport :
    methodBesideImport.Built ∧
      (∃ c, methodBesideImport.Acted 5 "app" [.enter 0 0, .enter 1 1, .enter 2 2, .enter 3 3,
          .exitFunction, .exitClass, .enter 4 1] ⟨[], c⟩ ∧
        c.classes = [] ∧ c.functions = [] ∧ methodBesideImport.walk 5 "app" = .ok c.result) ∧
      methodBesideImport.walk 1 "app" = .error ⟨1⟩ := by
  have hbuilt : methodBesideImport.Built :=
    .push (.push (.push (.push (.push .root (by decide)) (by decide)) (by decide)) (by decide))
      (by decide)
  obtain ⟨-, hwalk⟩ := walk_enters_once hbuilt
  refine ⟨hbuilt, ?_, ?_⟩
  · have hstart : methodBesideImport.Acted 5 "app" [] (.start "app") := .start
    have hmethod := (hstart.next (.enter (by decide) rfl)).next (.enter (by decide) rfl)
    have hcall := (hmethod.next (.enter (by decide) rfl)).next (.enter (by decide) rfl)
    have hacted := ((hcall.next .exitFunction).next .exitClass).next (.skip (by decide) rfl)
    obtain ⟨-, -, hacts⟩ := hwalk 5 "app"
    obtain ⟨-, -, -, -, hover⟩ := hacts _ _ hacted
    obtain ⟨hfinished, hresult⟩ := (hover (.inl rfl)).1 fun n hn _ =>
      Nat.le_trans (depth_le_self n) (Nat.le_of_lt_succ hn)
    exact ⟨_, hacted, hfinished.classes, hfinished.functions, hresult⟩
  · obtain ⟨-, ⟨done, w, hacted, hover⟩, hacts⟩ := hwalk 1 "app"
    obtain ⟨-, -, -, -, hends⟩ := hacts done w hacted
    have h := hbuilt.wellNumbered
    have hclass : 1 ∈ methodBesideImport.children 0 := by decide
    have hmethod : 2 ∈ methodBesideImport.children 1 := by decide
    have hvisited := h.visited_child hmethod (h.visited_child hclass (visited_zero _) rfl) rfl
    have hdeep : 1 < methodBesideImport.depth 2 := by
      rw [h.depth_child hmethod, h.depth_child hclass, depth_zero]
      decide
    exact ((hends hover).2 ⟨2, by decide, hvisited, hdeep⟩).2

end Outline

end CallAtlas
