import CallAtlas.Proofs.Scope.Enclosing
import Mathlib.Algebra.GroupWithZero.Nat
/-!
# The pending actions of a walk

Between two actions of a walk, the pending nodes stand in a bracket structure: below the actions that
leave the classes and functions in force, every node to be entered has just these around it. Hence a
walk visits the nodes of its schedule one after the other, each with the classes and functions among
its ancestors in force, and it fails exactly when one of them lies too deep.
-/

namespace CallAtlas

namespace ScopeContext

/-- The context outside of all classes and functions. -/
def bare (c : ScopeContext) : ScopeContext := { c with classes := [], functions := [] }

theorem eq_bare {c : ScopeContext} {classes functions : List String} (hclasses : c.classes = classes)
    (hfunctions : c.functions = functions) :
    c = { c.bare with classes := classes, functions := functions } := by
  rw [← hclasses, ← hfunctions]
  rfl

theorem enterFunction_eq (c : ScopeContext) (name : String) :
    c.enterFunction name = { c with
      functions := c.functions ++ [name]
      callGraph := c.callGraph.addKey
        (joinDots (c.module :: (c.classes ++ (c.functions ++ [name])))) } := by
  simp [enterFunction, currentScope]

theorem foldl_importModules (names : List ImportedName) (c : ScopeContext) :
    names.foldl (fun c n => (c.addAlias n.bound n.name).addImport n.name) c = { c with
      aliases := (names.map fun n => (n.bound, n.name)).foldl
        (fun m e => m.insert e.1 e.2) c.aliases
      importGraph := (names.map (·.name)).foldl
        (fun g target => g.addEdge c.module target) c.importGraph } := by
  induction names generalizing c with
  | nil => rfl
  | cons n names ih => rw [List.foldl_cons, ih]; rfl

theorem foldl_importFrom (source : String) (names : List ImportedName) (c : ScopeContext) :
    names.foldl (fun c n => c.addAlias n.bound (joinDots [source, n.name])) c = { c with
      aliases := (names.map fun n => (n.bound, joinDots [source, n.name])).foldl
        (fun m e => m.insert e.1 e.2) c.aliases } := by
  induction names generalizing c with
  | nil => rfl
  | cons n names ih => rw [List.foldl_cons, ih]; rfl

end ScopeContext

/-- What is to be left after the children of a node. -/
@[simp] def Construct.leaveSteps : Construct → List WalkStep
  | .classDef _ => [.exitClass]
  | .functionDef _ => [.exitFunction]
  | _ => []

theorem Construct.names_of_hidesBelow {construct : Construct} (h : construct.hidesBelow = true) :
    construct.className?.toList = [] ∧ construct.functionName?.toList = [] := by
  cases construct with
  | classDef c => cases h
  | functionDef f => cases h
  | _ => exact ⟨rfl, rfl⟩

namespace Outline

variable {o : Outline}

def callGraphAfter (o : Outline) (c : ScopeContext) (n : Nat) : NameGraph :=
  match o.construct n with
  | .functionDef name =>
    c.callGraph.addKey (joinDots (c.module :: (c.classes ++ (c.functions ++ [name]))))
  | .call =>
    match c.currentScope, c.callee o n with
    | some caller, some callee => c.callGraph.addEdge caller callee
    | _, _ => c.callGraph
  | _ => c.callGraph

/-- A visit, with each part of the context on its own. -/
theorem visit_eq (n : Nat) (c : ScopeContext) :
    o.visit n c = ({
      module := c.module
      classes := c.classes ++ (o.construct n).className?.toList
      functions := c.functions ++ (o.construct n).functionName?.toList
      aliases := (o.construct n).bindings.foldl (fun m e => m.insert e.1 e.2) c.aliases
      callGraph := o.callGraphAfter c n
      importGraph := (o.construct n).imports.foldl
        (fun g target => g.addEdge c.module target) c.importGraph },
      if (o.construct n).hidesBelow then none else some (o.construct n).leaveSteps) := by
  rw [callGraphAfter]
  cases hn : o.construct n with
  | importModules names =>
    rw [visit, hn]
    simp [ScopeContext.foldl_importModules]
  | importFrom module names =>
    rw [visit, hn]
    cases module with
    | none => simp
    | some source => simp [ScopeContext.foldl_importFrom, ScopeContext.addImport]
  | classDef name =>
    rw [visit, hn]
    simp [ScopeContext.enterClass]
  | functionDef name =>
    rw [visit, hn]
    simp [ScopeContext.enterFunction_eq]
  | call =>
    rw [visit, hn]
    cases c.currentScope <;> cases c.callee o n <;> simp [ScopeContext.addCall]
  | _ =>
    rw [visit, hn]
    simp

/-- The context after a visit of a node with the classes and functions around it in force. -/
def record (o : Outline) (c : ScopeContext) (n : Nat) : ScopeContext :=
  (o.visit n { c with classes := o.classesAround n, functions := o.functionsAround n }).1.bare

/-- The visited nodes that pending actions lead to. -/
def schedule (o : Outline) (pending : List WalkStep) : List Nat :=
  pending.flatMap fun
    | .enter n _ => (o.subtree n).filter fun m => o.Visited m
    | _ => []

/-- A bound on the actions that pending ones lead to. -/
def work (o : Outline) (pending : List WalkStep) : Nat :=
  (pending.map fun
    | .enter n _ => 2 * (o.subtree n).length
    | _ => 1).sum

/-- The pending actions leave the classes and functions in force one after the other, and every node
is entered at its depth with the classes and functions around it in force. -/
inductive Bracketed (o : Outline) : List String → List String → List WalkStep → Prop where
  | nil : Bracketed o [] [] []
  | enter {n pending} (hvisited : o.Visited n)
      (hrest : Bracketed o (o.classesAround n) (o.functionsAround n) pending) :
      Bracketed o (o.classesAround n) (o.functionsAround n)
        (.enter n (o.ancestors n).length :: pending)
  | exitClass {classes functions name pending} (hrest : Bracketed o classes functions pending) :
      Bracketed o (classes ++ [name]) functions (.exitClass :: pending)
  | exitFunction {classes functions name pending} (hrest : Bracketed o classes functions pending) :
      Bracketed o classes (functions ++ [name]) (.exitFunction :: pending)

theorem schedule_append (p q : List WalkStep) : o.schedule (p ++ q) = o.schedule p ++ o.schedule q :=
  List.flatMap_append

theorem work_append (p q : List WalkStep) : o.work (p ++ q) = o.work p + o.work q := by
  simp [work]

theorem schedule_leaveSteps (construct : Construct) : o.schedule construct.leaveSteps = [] := by
  cases construct <;> rfl

theorem work_leaveSteps_le (construct : Construct) : o.work construct.leaveSteps ≤ 1 := by
  cases construct <;> simp [work]

def below (o : Outline) (n : Nat) : List WalkStep :=
  (o.children n).map fun c => .enter c ((o.ancestors n).length + 1)

/-- The actions that visiting a node leads to. -/
def next (o : Outline) (n : Nat) : List WalkStep :=
  if (o.construct n).hidesBelow then [] else o.below n ++ (o.construct n).leaveSteps

theorem schedule_next (n : Nat) :
    o.schedule (o.next n) = if (o.construct n).hidesBelow then [] else
      (o.children n).flatMap fun c => (o.subtree c).filter fun m => o.Visited m := by
  unfold next
  split
  · rfl
  · rw [schedule_append, schedule_leaveSteps, List.append_nil, schedule, below, List.flatMap_map]

theorem walkSteps_enter (maxDepth fuel n : Nat) (pending : List WalkStep) (c : ScopeContext) :
    o.walkSteps maxDepth (fuel + 1) (.enter n (o.ancestors n).length :: pending) c =
      if maxDepth < (o.ancestors n).length then .error ⟨maxDepth⟩
      else o.walkSteps maxDepth fuel (o.next n ++ pending) (o.visit n c).1 := by
  rw [walkSteps, visit_eq, next]
  cases (o.construct n).hidesBelow <;> rfl

theorem schedule_root : o.schedule [.enter 0 0] = o.visitOrder := List.append_nil _

/-- At the root no class and no function is in force. -/
theorem bracketed_root : Bracketed o [] [] [.enter 0 0] := by
  have hroot : o.ancestors 0 = [] := ancestors_zero o
  have hclasses : o.classesAround 0 = [] := by simp [classesAround, hroot]
  have hfunctions : o.functionsAround 0 = [] := by simp [functionsAround, hroot]
  have hrest : Bracketed o (o.classesAround 0) (o.functionsAround 0) [] := by
    rw [hclasses, hfunctions]
    exact .nil
  have henter := Bracketed.enter o.visited_zero hrest
  rwa [hclasses, hfunctions, hroot] at henter

namespace WellNumbered

variable (h : WellNumbered o)
include h

theorem classesAround_child {n c : Nat} (hc : c ∈ o.children n) :
    o.classesAround c = o.classesAround n ++ (o.construct n).className?.toList := by
  rw [classesAround, h.ancestors_child hc, List.filterMap_append, List.filterMap_cons]
  cases (o.construct n).className? <;> rfl

theorem functionsAround_child {n c : Nat} (hc : c ∈ o.children n) :
    o.functionsAround c = o.functionsAround n ++ (o.construct n).functionName?.toList := by
  rw [functionsAround, h.ancestors_child hc, List.filterMap_append, List.filterMap_cons]
  cases (o.construct n).functionName? <;> rfl

theorem visited_child {n c : Nat} (hc : c ∈ o.children n) (hn : o.Visited n)
    (hhides : (o.construct n).hidesBelow = false) : o.Visited c := by
  intro a ha
  rw [h.ancestors_child hc] at ha
  rcases List.mem_append.1 ha with ha | ha
  · exact hn a ha
  · rwa [List.mem_singleton.1 ha]

/-- A visited node is visited before what lies below it, of which nothing is visited if it hides. -/
theorem filter_subtree {n : Nat} (hn : o.Visited n) :
    ((o.subtree n).filter fun m => o.Visited m) = n :: o.schedule (o.next n) := by
  rw [h.subtree_eq, List.filter_cons_of_pos (by simpa using hn), List.filter_flatMap, schedule_next]
  congr 1
  split
  · rename_i hhides
    refine List.flatMap_eq_nil_iff.2 fun c hc => List.filter_eq_nil_iff.2 fun m hm => ?_
    -- the hiding node is an ancestor of everything in the subtrees of its children
    have hanc : n ∈ o.ancestors m := by
      have hparent := h.ancestors_child hc
      rcases h.eq_or_mem_ancestors hm with rfl | hcm
      · simp [hparent]
      · exact (ancestors_isPrefix hcm).subset (by simp [hparent])
    rw [decide_eq_true_eq]
    intro hm
    rw [hm n hanc] at hhides
    cases hhides
  · rfl

theorem schedule_enter {n : Nat} (hn : o.Visited n) (depth : Nat) (pending : List WalkStep) :
    o.schedule (.enter n depth :: pending) = n :: o.schedule (o.next n ++ pending) := by
  rw [schedule_append, ← List.cons_append, ← h.filter_subtree hn]
  rfl

theorem bracketed_next {n : Nat} {pending : List WalkStep} (hn : o.Visited n)
    (hrest : Bracketed o (o.classesAround n) (o.functionsAround n) pending) :
    Bracketed o (o.classesAround n ++ (o.construct n).className?.toList)
      (o.functionsAround n ++ (o.construct n).functionName?.toList) (o.next n ++ pending) := by
  unfold next
  split
  · rename_i hhides
    obtain ⟨hclass, hfunction⟩ := Construct.names_of_hidesBelow hhides
    rw [hclass, hfunction, List.append_nil, List.append_nil]
    exact hrest
  rename_i hhides
  have hleave : Bracketed o (o.classesAround n ++ (o.construct n).className?.toList)
      (o.functionsAround n ++ (o.construct n).functionName?.toList)
      ((o.construct n).leaveSteps ++ pending) := by
    cases o.construct n with
    | classDef name => simpa using hrest.exitClass
    | functionDef name => simpa using hrest.exitFunction
    | _ => simpa using hrest
  -- all children have the same classes and functions around them
  have hchildren : ∀ cs : List Nat, (∀ c ∈ cs, c ∈ o.children n) →
      Bracketed o (o.classesAround n ++ (o.construct n).className?.toList)
        (o.functionsAround n ++ (o.construct n).functionName?.toList)
        ((cs.map fun c => .enter c ((o.ancestors n).length + 1)) ++
          ((o.construct n).leaveSteps ++ pending)) := by
    intro cs hcs
    induction cs with
    | nil => exact hleave
    | cons c cs ih =>
      have hc := hcs c List.mem_cons_self
      have hdepth : (o.ancestors n).length + 1 = (o.ancestors c).length := by
        simp [h.ancestors_child hc]
      have hrest := ih fun d hd => hcs d (List.mem_cons_of_mem _ hd)
      rw [List.map_cons, List.cons_append, ← h.classesAround_child hc,
        ← h.functionsAround_child hc, hdepth]
      rw [← h.classesAround_child hc, ← h.functionsAround_child hc, hdepth] at hrest
      exact .enter (h.visited_child hc hn (Bool.eq_false_iff.2 hhides)) hrest
  rw [List.append_assoc]
  exact hchildren (o.children n) fun c hc => hc

theorem work_next_lt (n depth : Nat) (pending : List WalkStep) :
    o.work (o.next n ++ pending) < o.work (.enter n depth :: pending) := by
  have hbelow : ∀ cs : List Nat,
      o.work (cs.map fun c => .enter c ((o.ancestors n).length + 1)) =
        2 * (cs.flatMap o.subtree).length := by
    intro cs
    induction cs with
    | nil => rfl
    | cons c cs ih =>
      rw [List.map_cons, List.flatMap_cons, List.length_append, Nat.mul_add, ← ih]
      simp [work]
  have hnext : o.work (o.next n) ≤ 2 * ((o.children n).flatMap o.subtree).length + 1 := by
    unfold next
    split
    · exact Nat.zero_le _
    · have hleave := work_leaveSteps_le (o := o) (o.construct n)
      rw [work_append, below, hbelow]
      omega
  have hnode : o.work (.enter n depth :: pending) = 2 * (o.subtree n).length + o.work pending := by
    simp [work]
  rw [work_append, hnode, h.subtree_eq, List.length_cons]
  omega

/-- Carrying out pending actions with enough fuel visits the nodes of their schedule, unless one of
them lies too deep. -/
theorem walkSteps_eq {maxDepth fuel : Nat} {classes functions : List String}
    {pending : List WalkStep} {c : ScopeContext} (hfuel : o.work pending ≤ fuel)
    (hpending : Bracketed o classes functions pending) (hclasses : c.classes = classes)
    (hfunctions : c.functions = functions) :
    o.walkSteps maxDepth fuel pending c =
      if ∃ n ∈ o.schedule pending, maxDepth < (o.ancestors n).length then .error ⟨maxDepth⟩
      else .ok ((o.schedule pending).foldl o.record c.bare) := by
  -- by induction on the fuel; the brackets say what each kind of action finds in force
  induction fuel generalizing classes functions pending c with
  | zero =>
    cases hpending with
    | nil => exact congrArg Except.ok (ScopeContext.eq_bare hclasses hfunctions)
    | @enter n pending hvisited hrest =>
      have hless := h.work_next_lt n (o.ancestors n).length pending
      omega
    | exitClass => simp [work] at hfuel
    | exitFunction => simp [work] at hfuel
  | succ fuel ih =>
    cases hpending with
    | nil => exact congrArg Except.ok (ScopeContext.eq_bare hclasses hfunctions)
    | @exitClass classes functions name pending hrest =>
      have hless : o.work pending ≤ fuel := by
        simp [work] at hfuel ⊢
        omega
      have hleft : c.exitClass.classes = classes := by
        rw [ScopeContext.exitClass, hclasses, List.dropLast_concat]
      exact ih hless hrest hleft hfunctions
    | @exitFunction classes functions name pending hrest =>
      have hless : o.work pending ≤ fuel := by
        simp [work] at hfuel ⊢
        omega
      have hleft : c.exitFunction.functions = functions := by
        rw [ScopeContext.exitFunction, hfunctions, List.dropLast_concat]
      exact ih hless hrest hclasses hleft
    | @enter n pending hvisited hrest =>
      have hless := h.work_next_lt n (o.ancestors n).length pending
      have hrecord : (o.visit n c).1.bare = o.record c.bare n := by
        rw [record, ← ScopeContext.eq_bare hclasses hfunctions]
      rw [walkSteps_enter, h.schedule_enter hvisited, List.foldl_cons, ← hrecord]
      by_cases hdeep : maxDepth < (o.ancestors n).length
      · rw [if_pos hdeep, if_pos ⟨n, List.mem_cons_self, hdeep⟩]
      · have hfirst : (∃ m ∈ n :: o.schedule (o.next n ++ pending),
            maxDepth < (o.ancestors m).length) ↔
            ∃ m ∈ o.schedule (o.next n ++ pending), maxDepth < (o.ancestors m).length := by
          simp [hdeep]
        have hvisit := visit_eq (o := o) n c
        have hclasses' : (o.visit n c).1.classes =
            o.classesAround n ++ (o.construct n).className?.toList := by rw [hvisit, hclasses]
        have hfunctions' : (o.visit n c).1.functions =
            o.functionsAround n ++ (o.construct n).functionName?.toList := by
          rw [hvisit, hfunctions]
        simp only [if_neg hdeep, hfirst]
        exact ih (by omega) (h.bracketed_next hvisited hrest) hclasses' hfunctions'

theorem work_root : o.work [.enter 0 0] ≤ 2 * o.size := by
  have hlength : (o.subtree 0).length = o.size := h.length_preorder
  simp [work, hlength]

/-- A walk visits the nodes outside of hidden ones in preorder, and fails exactly when one of them
lies too deep. -/
theorem walk_eq (maxDepth : Nat) (module : String) :
    o.walk maxDepth module =
      if ∃ n ∈ o.visitOrder, maxDepth < (o.ancestors n).length then .error ⟨maxDepth⟩
      else .ok (o.visitOrder.foldl o.record { module }).result := by
  have hrun : o.walkSteps maxDepth (2 * o.size) [.enter 0 0] { module } = _ :=
    h.walkSteps_eq h.work_root bracketed_root rfl rfl
  rw [walk, hrun, schedule_root]
  split <;> rfl

theorem eq_result_of_walk {maxDepth : Nat} {module : String} {r : WalkResult}
    (hwalk : o.walk maxDepth module = .ok r) :
    r = (o.visitOrder.foldl o.record { module }).result := by
  rw [h.walk_eq] at hwalk
  split at hwalk
  · cases hwalk
  · exact (Except.ok.inj hwalk).symm

end WellNumbered

theorem exists_walk_of_map {maxDepth : Nat} {module : String} {α : Type} {f : WalkResult → α} {a : α}
    (h : (o.walk maxDepth module).map f = .ok a) :
    ∃ r, o.walk maxDepth module = .ok r ∧ f r = a := by
  cases hwalk : o.walk maxDepth module with
  | error e =>
    rw [hwalk] at h
    cases h
  | ok r =>
    rw [hwalk] at h
    exact ⟨r, rfl, Except.ok.inj h⟩

end Outline

end CallAtlas
