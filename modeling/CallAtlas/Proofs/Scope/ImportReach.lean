import CallAtlas.Proofs.Scope.Recorded
/-!
# How far imports reach

A call by a bare name refers to what the name is bound to when the call is visited. The aliases of the
file tell the same exactly if no import from the call on binds the name to something else. So they
tell it of every call in a file whose imports stand before the calls that need them, and such a file
may be rearranged without a change of its call graph.
-/

namespace CallAtlas

/-- Where every name is bound once, the order of the bindings does not matter. -/
theorem lastBinding_perm {bs cs : List (String × String)} (hnodup : (bs.map (·.1)).Nodup)
    (hperm : bs.Perm cs) (id : String) : lastBinding bs id = lastBinding cs id := by
  have hnodup' : (cs.map (·.1)).Nodup := (hperm.map _).nodup_iff.1 hnodup
  apply Option.ext
  intro origin
  rw [lastBinding, lastBinding, find?_reverse_eq_some_iff hnodup, find?_reverse_eq_some_iff hnodup',
    hperm.mem_iff]

namespace Outline

section Definitions
variable (o : Outline)

/-- The bindings of the visited imports from a node on in preorder. -/
def bindingsFrom (n : Nat) : List (String × String) :=
  ((o.preorder.dropWhile (· ≠ n)).filter fun m => o.Visited m).flatMap fun m =>
    (o.construct m).bindings

/-- What a call has for its called expression. -/
def target? (n : Nat) : Option Construct := (o.children n).head?.map o.construct

def calledName? (n : Nat) : Option String :=
  match o.construct n, o.target? n with
  | .call, some (.name id) => some id
  | _, _ => none

/-- No import from a call by a bare name on binds the name. -/
def ImportsLead : Prop :=
  ∀ n ∈ o.visitOrder, ∀ id ∈ o.calledName? n, lastBinding (o.bindingsFrom n) id = none

instance : Decidable o.ImportsLead :=
  inferInstanceAs (Decidable (∀ n ∈ o.visitOrder, ∀ id ∈ o.calledName? n,
    lastBinding (o.bindingsFrom n) id = none))

/-- The visited calls: the classes and the functions around each and what it calls. -/
def callPlaces : List (List String × List String × Option Construct) :=
  (o.visitOrder.filter fun n => o.construct n = .call).map fun n =>
    (o.classesAround n, o.functionsAround n, o.target? n)

/-- The visited functions: the classes and the functions around each and its name. -/
def functionPlaces : List (List String × List String × String) :=
  o.visitOrder.filterMap fun n =>
    (o.construct n).functionName?.map fun name => (o.classesAround n, o.functionsAround n, name)

end Definitions

/-- The same calls, functions and bindings in any order. -/
structure Rearranged (o o' : Outline) : Prop where
  callPlaces_perm : o.callPlaces.Perm o'.callPlaces
  functionPlaces_perm : o.functionPlaces.Perm o'.functionPlaces
  bindings_perm : o.allBindings.Perm o'.allBindings

def refersTo (bindings : List (String × String)) (module : String) : Option Construct → Option String
  | some (.name id) => some ((lastBinding bindings id).getD (joinDots [module, id]))
  | some (.attribute member) => some (joinDots [module, member])
  | _ => none

variable {o o' : Outline} {module : String} {n : Nat} {id : String}

theorem calleeUnder_eq (bindings : List (String × String)) (module : String) (n : Nat) :
    o.calleeUnder bindings module n = refersTo bindings module (o.target? n) := by
  rw [calleeUnder, target?]
  split
  · rename_i h
    rw [h]
    rfl
  · rename_i h
    rw [h]
    rfl
  · rename_i hname hattribute
    unfold refersTo
    split
    · exact absurd ‹_› (hname _)
    · exact absurd ‹_› (hattribute _)
    · rfl

theorem refersTo_congr {bs cs : List (String × String)}
    (h : ∀ id, lastBinding bs id = lastBinding cs id) (module : String) :
    refersTo bs module = refersTo cs module := by
  funext target
  unfold refersTo
  split
  · rw [h]
  · rfl
  · rfl

theorem allBindings_eq (o : Outline) (n : Nat) :
    o.allBindings = o.bindingsBefore n ++ o.bindingsFrom n := by
  rw [bindingsBefore, bindingsFrom, ← List.flatMap_append, ← List.filter_append,
    List.takeWhile_append_dropWhile]
  rfl

theorem lastBinding_allBindings (o : Outline) (n : Nat) (id : String) :
    lastBinding o.allBindings id =
      (lastBinding (o.bindingsFrom n) id).or (lastBinding (o.bindingsBefore n) id) := by
  rw [o.allBindings_eq n, lastBinding_append]

theorem calledName?_eq_some_iff :
    o.calledName? n = some id ↔ o.construct n = .call ∧ o.target? n = some (.name id) := by
  unfold calledName?
  split
  · rename_i hcall htarget
    simp [hcall, htarget]
  · rename_i hno
    simpa using hno id

theorem mem_callPlaces_iff (h : WellNumbered o) {place : List String × List String × Option Construct} :
    place ∈ o.callPlaces ↔ ∃ n, n < o.size ∧ o.Visited n ∧ o.construct n = .call ∧
      (o.classesAround n, o.functionsAround n, o.target? n) = place := by
  simp [callPlaces, mem_visitOrder_iff h, and_assoc]

theorem mem_functionPlaces_iff (h : WellNumbered o) {place : List String × List String × String} :
    place ∈ o.functionPlaces ↔ ∃ n, n < o.size ∧ o.Visited n ∧ ∃ name,
      o.construct n = .functionDef name ∧
        (o.classesAround n, o.functionsAround n, name) = place := by
  have hname : ∀ n name, (o.construct n).functionName? = some name ↔
      o.construct n = .functionDef name := by
    intro n name
    cases o.construct n <;> simp
  simp only [functionPlaces, List.mem_filterMap, mem_visitOrder_iff h, Option.map_eq_some_iff, hname,
    and_assoc]

theorem callee_eq_of_calledName? {caller callee : String} (hcall : o.IsCall module n caller callee)
    (hname : o.calledName? n = some id) :
    callee = (lastBinding (o.bindingsBefore n) id).getD (joinDots [module, id]) := by
  have hcallee := hcall.calls.callee_eq
  rw [calleeUnder_eq, (calledName?_eq_some_iff.1 hname).2] at hcallee
  exact (Option.some.inj hcallee).symm

/-- All bindings of a file tell what a call by a bare name refers to exactly if those from the call
on agree with what it refers to. -/
theorem callee_eq_allBindings_iff {caller callee : String}
    (hcall : o.IsCall module n caller callee) (hname : o.calledName? n = some id) :
    callee = (lastBinding o.allBindings id).getD (joinDots [module, id]) ↔
      ∀ origin, lastBinding (o.bindingsFrom n) id = some origin → origin = callee := by
  have hcallee := callee_eq_of_calledName? hcall hname
  rw [o.lastBinding_allBindings n]
  cases lastBinding (o.bindingsFrom n) id with
  | none => simpa using hcallee
  | some origin => simp [eq_comm]

section WellNumbered
variable (h : WellNumbered o)
include h

theorem ImportsLead.calleeUnder_eq (hlead : o.ImportsLead) (hsize : n < o.size)
    (hvisited : o.Visited n) (hcall : o.construct n = .call) :
    o.calleeUnder (o.bindingsBefore n) module n = refersTo o.allBindings module (o.target? n) := by
  have hn : n ∈ o.visitOrder := (mem_visitOrder_iff h).2 ⟨hsize, hvisited⟩
  rw [Outline.calleeUnder_eq]
  unfold refersTo
  split
  · rename_i id htarget
    -- no import from the call on binds the name, so all bindings say what those before the call say
    have hnone := hlead n hn id (calledName?_eq_some_iff.2 ⟨hcall, htarget⟩)
    rw [o.lastBinding_allBindings n, hnone, Option.none_or]
  · rfl
  · rfl

/-- In a file whose imports lead, the calls are given by their places and all bindings. -/
theorem ImportsLead.exists_isCall_iff (hlead : o.ImportsLead) {caller callee : String} :
    (∃ n, o.IsCall module n caller callee) ↔
      ∃ classes functions target, (classes, functions, target) ∈ o.callPlaces ∧ functions ≠ [] ∧
        caller = joinDots (module :: (classes ++ functions)) ∧
        refersTo o.allBindings module target = some callee := by
  constructor
  · rintro ⟨n, hsize, hvisited, hcall, hinside, hcaller, hcallee⟩
    rw [hlead.calleeUnder_eq h hsize hvisited hcall] at hcallee
    exact ⟨_, _, _, (mem_callPlaces_iff h).2 ⟨n, hsize, hvisited, hcall, rfl⟩, hinside, hcaller,
      hcallee⟩
  · rintro ⟨_, _, _, hplace, hinside, hcaller, hcallee⟩
    obtain ⟨n, hsize, hvisited, hcall, hn⟩ := (mem_callPlaces_iff h).1 hplace
    cases hn
    rw [← hlead.calleeUnder_eq h hsize hvisited hcall] at hcallee
    exact ⟨n, hsize, hvisited, hcall, hinside, hcaller, hcallee⟩

theorem exists_isFunction_iff {scope : String} :
    (∃ n, o.IsFunction module n scope) ↔
      ∃ classes functions name, (classes, functions, name) ∈ o.functionPlaces ∧
        scope = joinDots (module :: (classes ++ (functions ++ [name]))) := by
  constructor
  · rintro ⟨n, hsize, hvisited, name, hname, hscope⟩
    exact ⟨_, _, name, (mem_functionPlaces_iff h).2 ⟨n, hsize, hvisited, name, hname, rfl⟩, hscope⟩
  · rintro ⟨_, _, _, hplace, hscope⟩
    obtain ⟨n, hsize, hvisited, name, hname, hn⟩ := (mem_functionPlaces_iff h).1 hplace
    cases hn
    exact ⟨n, hsize, hvisited, _, hname, hscope⟩

end WellNumbered

/-- Moving imports among the statements of a file changes no call, as long as they lead. -/
theorem Rearranged.callGraph_eq (hrearranged : Rearranged o o') (ho : o.Built) (ho' : o'.Built)
    (honce : (o.allBindings.map (·.1)).Nodup) (hlead : o.ImportsLead) (hlead' : o'.ImportsLead)
    {d d' : Nat} {r r' : WalkResult} (h : o.walk d module = .ok r)
    (h' : o'.walk d' module = .ok r') : r'.callGraph = r.callGraph := by
  have hcalls : ∀ caller callee,
      (∃ n, o'.IsCall module n caller callee) ↔ ∃ n, o.IsCall module n caller callee := by
    intro caller callee
    rw [hlead.exists_isCall_iff ho.wellNumbered, hlead'.exists_isCall_iff ho'.wellNumbered,
      refersTo_congr (lastBinding_perm honce hrearranged.bindings_perm)]
    simp only [hrearranged.callPlaces_perm.mem_iff]
  have hfunctions : ∀ scope,
      (∃ n, o'.IsFunction module n scope) ↔ ∃ n, o.IsFunction module n scope := by
    intro scope
    rw [exists_isFunction_iff ho.wellNumbered, exists_isFunction_iff ho'.wellNumbered]
    simp only [hrearranged.functionPlaces_perm.mem_iff]
  refine Digraph.ext_of_mem (fun a => ?keys) fun a b => ?edges
  case keys =>
    rw [ho'.mem_keys_callGraph h', ho.mem_keys_callGraph h, hfunctions a, exists_comm,
      exists_comm (p := fun n b => o.IsCall module n a b)]
    simp only [hcalls]
  case edges => rw [ho'.mem_edges_callGraph h', ho.mem_edges_callGraph h, hcalls]

/-- A call by a bare name refers to what the visited imports before it bind the name to. The aliases
of the file tell the same exactly if the imports from the call on do not disagree, and imports that
lead may be moved without a change of the call graph where each name is imported once. -/
theorem bare_calls_follow_imports {maxDepth : Nat} {r : WalkResult} (ho : o.Built)
    (h : o.walk maxDepth module = .ok r) :
    (∀ n caller callee id, o.IsCall module n caller callee → o.calledName? n = some id →
      (caller, callee) ∈ r.callGraph.edges ∧
        callee = (lastBinding (o.bindingsBefore n) id).getD (joinDots [module, id]) ∧
        (callee = (r.aliases.get? id).getD (joinDots [module, id]) ↔
          ∀ origin, lastBinding (o.bindingsFrom n) id = some origin → origin = callee)) ∧
      ∀ o' d' r', o'.Built → o'.walk d' module = .ok r' → Rearranged o o' →
        (o.allBindings.map (·.1)).Nodup → o.ImportsLead → o'.ImportsLead →
          r'.callGraph = r.callGraph := by
  constructor
  · intro n caller callee id hcall hname
    refine ⟨(ho.mem_edges_callGraph h).2 ⟨n, hcall⟩, callee_eq_of_calledName? hcall hname, ?_⟩
    rw [ho.get?_aliases h]
    exact callee_eq_allBindings_iff hcall hname
  · intro o' d' r' ho' h' hrearranged honce hlead hlead'
    exact hrearranged.callGraph_eq ho ho' honce hlead hlead' h h'

/-- An imported name that a function calls. -/
def earlyImport : Outline :=
  (((root.push 0 (.importFrom (some "lib") [⟨"g", none⟩])).push 0 (.functionDef "f")).push
    2 .call).push 3 (.name "g")

/-- The same with the import inside of the function. -/
def innerImport : Outline :=
  (((root.push 0 (.functionDef "f")).push 1 (.importFrom (some "lib") [⟨"g", none⟩])).push
    1 .call).push 3 (.name "g")

/-- The same with the import behind the function. -/
def lateImport : Outline :=
  (((root.push 0 (.functionDef "f")).push 1 .call).push 2 (.name "g")).push 0
    (.importFrom (some "lib") [⟨"g", none⟩])

theorem built_earlyImport : earlyImport.Built :=
  .push (.push (.push (.push .root (by decide)) (by decide)) (by decide)) (by decide)

theorem exists_walk_earlyImport :
    ∃ r, earlyImport.walk 3 "app" = .ok r ∧ r.callGraph.edges = [("app.f", "lib.g")] :=
  exists_walk_of_map (f := fun r => r.callGraph.edges) rfl

/-- Moving the import of a called name behind the call changes the call graph, and what the call
refers to is not what the aliases tell. -/
theorem lateImport_not_followed :
    earlyImport.Built ∧ lateImport.Built ∧ Rearranged earlyImport lateImport ∧
      (∃ r, earlyImport.walk 3 "app" = .ok r ∧ r.callGraph.edges = [("app.f", "lib.g")]) ∧
      ∃ r, lateImport.walk 3 "app" = .ok r ∧ lateImport.calledName? 2 = some "g" ∧
        r.callGraph.edges = [("app.f", "app.g")] ∧ r.aliases.get? "g" = some "lib.g" := by
  have hbuilt : lateImport.Built :=
    .push (.push (.push (.push .root (by decide)) (by decide)) (by decide)) (by decide)
  have hperm : Rearranged earlyImport lateImport :=
    ⟨by decide +kernel, by decide +kernel, by decide +kernel⟩
  have hlate : (lateImport.walk 3 "app").map (fun r => (r.callGraph.edges, r.aliases.get? "g")) =
      .ok ([("app.f", "app.g")], some "lib.g") := by rfl
  obtain ⟨r, hwalk, hr⟩ := exists_walk_of_map hlate
  obtain ⟨hedges, halias⟩ := Prod.mk.inj hr
  exact ⟨built_earlyImport, hbuilt, hperm, exists_walk_earlyImport, r, hwalk, by decide, hedges,
    halias⟩

theorem bare_calls_follow_innerImport :
    ∃ r r', earlyImport.walk 3 "app" = .ok r ∧ innerImport.walk 3 "app" = .ok r' ∧
      ("app.f", "lib.g") ∈ r.callGraph.edges ∧
      (r.aliases.get? "g").getD "app.g" = "lib.g" ∧ r'.callGraph = r.callGraph := by
  obtain ⟨r, hwalk, -⟩ := exists_walk_earlyImport
  obtain ⟨r', hwalk', -⟩ : ∃ r, innerImport.walk 3 "app" = .ok r ∧ r.module = "app" :=
    exists_walk_of_map rfl
  have hbuilt' : innerImport.Built :=
    .push (.push (.push (.push .root (by decide)) (by decide)) (by decide)) (by decide)
  have hperm : Rearranged earlyImport innerImport :=
    ⟨by decide +kernel, by decide +kernel, by decide +kernel⟩
  have hcall : earlyImport.IsCall "app" 3 "app.f" "lib.g" :=
    ⟨by decide, by decide +kernel, rfl, by decide +kernel, by decide +kernel, by decide +kernel⟩
  have hnone : lastBinding (earlyImport.bindingsFrom 3) "g" = none := by decide +kernel
  obtain ⟨hcalls, hmove⟩ := bare_calls_follow_imports built_earlyImport hwalk
  obtain ⟨hedge, -, hfollows⟩ := hcalls 3 "app.f" "lib.g" "g" hcall (by decide)
  have halias := hfollows.2 fun origin h => by simp [hnone] at h
  exact ⟨r, r', hwalk, hwalk', hedge, halias.symm,
    hmove innerImport 3 r' hbuilt' hwalk' hperm (by decide +kernel) (by decide +kernel)
      (by decide +kernel)⟩

end Outline

end CallAtlas
