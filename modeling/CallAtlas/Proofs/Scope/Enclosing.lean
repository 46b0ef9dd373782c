import CallAtlas.Proofs.Outline.Preorder
import CallAtlas.Scope.Walk
/-!
# What stands around a node

The classes, the functions and the bindings in force at a node of an outline, read off its position
alone: the classes and functions are those among its strict ancestors, and the bindings are those of
the visited imports before it in preorder. A node is visited when no strict ancestor is an import
that names no module.
-/

namespace CallAtlas

namespace Construct

@[simp] def className? : Construct → Option String
  | .classDef c => some c
  | _ => none

@[simp] def functionName? : Construct → Option String
  | .functionDef f => some f
  | _ => none

/-- Whether everything below is skipped: an import that names no module. -/
@[simp] def hidesBelow : Construct → Bool
  | .importFrom none _ => true
  | _ => false

/-- The local names that an import binds, with what they stand for. -/
@[simp] def bindings : Construct → List (String × String)
  | .importModules names => names.map fun n => (n.bound, n.name)
  | .importFrom (some source) names => names.map fun n => (n.bound, joinDots [source, n.name])
  | _ => []

@[simp] def imports : Construct → List String
  | .importModules names => names.map (·.name)
  | .importFrom (some source) _ => [source]
  | _ => []

end Construct

/-- What a name stands for after some bindings, of which the last one of the name counts. -/
def lastBinding (bindings : List (String × String)) (id : String) : Option String :=
  (bindings.reverse.find? fun e => e.1 = id).map (·.2)

theorem lastBinding_append (bs cs : List (String × String)) (id : String) :
    lastBinding (bs ++ cs) id = (lastBinding cs id).or (lastBinding bs id) := by
  rw [lastBinding, List.reverse_append, List.find?_append]
  cases hfind : cs.reverse.find? fun e => e.1 = id with
  | none => simp [lastBinding, hfind]
  | some e => simp [lastBinding, hfind]

namespace Outline

variable (o : Outline)

/-- The names of the classes around a node, outermost first. -/
def classesAround (n : Nat) : List String :=
  (o.ancestors n).filterMap fun a => (o.construct a).className?

def functionsAround (n : Nat) : List String :=
  (o.ancestors n).filterMap fun a => (o.construct a).functionName?

/-- No strict ancestor of the node is an import that names no module. -/
def Visited (n : Nat) : Prop := ∀ a ∈ o.ancestors n, (o.construct a).hidesBelow = false

instance (n : Nat) : Decidable (o.Visited n) :=
  inferInstanceAs (Decidable (∀ a ∈ o.ancestors n, (o.construct a).hidesBelow = false))

@[simp] theorem visited_zero : o.Visited 0 := by simp [Visited]

/-- The visited nodes in preorder. -/
def visitOrder : List Nat := o.preorder.filter fun n => o.Visited n

/-- The bindings of the visited imports before a node in preorder. -/
def bindingsBefore (n : Nat) : List (String × String) :=
  ((o.preorder.takeWhile (· ≠ n)).filter fun m => o.Visited m).flatMap fun m =>
    (o.construct m).bindings

def allBindings : List (String × String) :=
  o.visitOrder.flatMap fun m => (o.construct m).bindings

/-- The identifier of the scope around a node. -/
def scopeAround (module : String) (n : Nat) : String :=
  joinDots (module :: (o.classesAround n ++ o.functionsAround n))

/-- What the call at a node refers to under some bindings. -/
def calleeUnder (bindings : List (String × String)) (module : String) (n : Nat) : Option String :=
  match (o.children n).head?.map o.construct with
  | some (.name id) => some ((lastBinding bindings id).getD (joinDots [module, id]))
  | some (.attribute member) => some (joinDots [module, member])
  | _ => none

/-- A call inside of a function, with the scope around it and what it refers to. -/
structure Calls (bindings : List (String × String)) (module : String) (n : Nat)
    (caller callee : String) : Prop where
  call : o.construct n = .call
  inside : o.functionsAround n ≠ []
  caller_eq : caller = o.scopeAround module n
  callee_eq : o.calleeUnder bindings module n = some callee

/-- A function definition, with the identifier of its scope. -/
def Defines (module : String) (n : Nat) (scope : String) : Prop :=
  ∃ name, o.construct n = .functionDef name ∧
    scope = joinDots (module :: (o.classesAround n ++ (o.functionsAround n ++ [name])))

/-- A visited call inside of a function, under the bindings before it. -/
structure IsCall (module : String) (n : Nat) (caller callee : String) : Prop where
  lt_size : n < o.size
  visited : o.Visited n
  calls : o.Calls (o.bindingsBefore n) module n caller callee

structure IsFunction (module : String) (n : Nat) (scope : String) : Prop where
  lt_size : n < o.size
  visited : o.Visited n
  defines : o.Defines module n scope

structure IsImport (n : Nat) (target : String) : Prop where
  lt_size : n < o.size
  visited : o.Visited n
  mem_imports : target ∈ (o.construct n).imports

variable {o}

theorem mem_visitOrder_iff (h : WellNumbered o) {n : Nat} :
    n ∈ o.visitOrder ↔ n < o.size ∧ o.Visited n := by
  simp [visitOrder, h.mem_preorder_iff]

theorem nodup_visitOrder (h : WellNumbered o) : o.visitOrder.Nodup := h.nodup_preorder.filter _

/-- The bindings before a visited node are those of the nodes visited before it. -/
theorem bindingsBefore_eq (h : WellNumbered o) {before after : List Nat} {n : Nat}
    (hsplit : o.visitOrder = before ++ n :: after) :
    o.bindingsBefore n = before.flatMap fun m => (o.construct m).bindings := by
  have hn : n ∈ o.visitOrder := by simp [hsplit]
  obtain ⟨hsize, hvisited⟩ := (mem_visitOrder_iff h).1 hn
  -- `n` splits the preorder and the order of visits, which is part of it, at one place each
  obtain ⟨front, back, hpre⟩ := List.append_of_mem (h.mem_preorder_iff.2 hsize)
  have hnodup := h.nodup_preorder
  rw [hpre, List.nodup_middle, List.nodup_cons, List.mem_append] at hnodup
  have hfront : n ∉ front := fun hmem => hnodup.1 (.inl hmem)
  have htake : o.preorder.takeWhile (· ≠ n) = front := by
    have hall : ∀ m ∈ front, decide (m ≠ n) = true := by
      intro m hm
      rw [decide_eq_true_eq]
      rintro rfl
      exact hfront hm
    rw [hpre, List.takeWhile_append_of_pos hall, List.takeWhile_cons_of_neg (by simp),
      List.append_nil]
  have hvisit : o.visitOrder = (front.filter fun m => o.Visited m) ++
      n :: (back.filter fun m => o.Visited m) := by
    simp [visitOrder, hpre, List.filter_append, hvisited]
  have hdistinct := nodup_visitOrder h
  rw [hsplit, List.nodup_middle, List.nodup_cons, List.mem_append, not_or] at hdistinct
  have heq := (List.append_cons_inj_of_notMem hdistinct.1.1 hdistinct.1.2).1
    (hsplit.symm.trans hvisit)
  rw [bindingsBefore, htake, heq.1]

end Outline

end CallAtlas
