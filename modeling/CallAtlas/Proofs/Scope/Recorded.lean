import CallAtlas.Proofs.Graph.Edges
import CallAtlas.Proofs.Lists
import CallAtlas.Proofs.Scope.Schedule
/-!
# What a walk records

A visit adds to the graphs and the aliases what its node stands for, under the bindings of the nodes
visited before it. Hence the output of a walk can be read off the outline: its calls are the visited
calls inside of functions, its keys their scopes and those of the visited functions, and its imports
and aliases are those of the visited imports.
-/

namespace CallAtlas

namespace Outline

variable {o : Outline}

/-- A call refers to what it does under bindings that the aliases agree with. -/
theorem callee_eq {c : ScopeContext} {bindings : List (String × String)} {n : Nat}
    (hbindings : ∀ id, c.aliases.get? id = lastBinding bindings id)
    (hcall : o.construct n = .call) :
    c.callee o n = o.calleeUnder bindings c.module n := by
  have htarget : o.callTarget n = (o.children n).head? := by
    rw [callTarget, hcall]
  rw [ScopeContext.callee, calleeUnder, htarget]
  cases (o.children n).head? with
  | none => rfl
  | some target =>
    simp only [Option.map_some]
    cases o.construct target with
    | name id => simp [hbindings, ScopeContext.qualify]
    | _ => rfl

section Visit
variable {c : ScopeContext} {bindings : List (String × String)} {n : Nat}
variable (hclasses : c.classes = o.classesAround n) (hfunctions : c.functions = o.functionsAround n)
variable (hbindings : ∀ id, c.aliases.get? id = lastBinding bindings id)
include hclasses hfunctions hbindings

/-- A visit adds the scope of a function, or a call, or nothing to the call graph. -/
theorem callGraphAfter_cases :
    (∃ scope, (∀ a, o.Defines c.module n a ↔ a = scope) ∧
        (∀ a b, ¬ o.Calls bindings c.module n a b) ∧
        o.callGraphAfter c n = c.callGraph.addKey scope) ∨
      (∃ caller callee, (∀ a, ¬ o.Defines c.module n a) ∧
        (∀ a b, o.Calls bindings c.module n a b ↔ a = caller ∧ b = callee) ∧
        o.callGraphAfter c n = c.callGraph.addEdge caller callee) ∨
      ((∀ a, ¬ o.Defines c.module n a) ∧ (∀ a b, ¬ o.Calls bindings c.module n a b) ∧
        o.callGraphAfter c n = c.callGraph) := by
  have hscope : c.currentScope =
      if o.functionsAround n = [] then none else some (o.scopeAround c.module n) := by
    simp [ScopeContext.currentScope, scopeAround, hclasses, hfunctions]
  unfold callGraphAfter
  split
  · rename_i name hn
    refine .inl ⟨_, fun a => ⟨?defines, fun ha => ⟨name, hn, ?same⟩⟩, fun a b hcalls => ?none, rfl⟩
    case defines =>
      rintro ⟨name', hn', rfl⟩
      rw [hn] at hn'
      cases hn'
      rw [hclasses, hfunctions]
    case same => rw [ha, hclasses, hfunctions]
    case none =>
      rw [hcalls.call] at hn
      cases hn
  · rename_i hn
    have hdefines : ∀ a, ¬ o.Defines c.module n a := by
      rintro a ⟨name, hn', -⟩
      rw [hn] at hn'
      cases hn'
    rw [hscope, callee_eq hbindings hn]
    by_cases hoff : o.functionsAround n = []
    · exact .inr (.inr ⟨hdefines, fun a b hcalls => hcalls.inside hoff, by rw [if_pos hoff]⟩)
    rw [if_neg hoff]
    cases hcallee : o.calleeUnder bindings c.module n with
    | none =>
      refine .inr (.inr ⟨hdefines, fun a b hcalls => ?_, rfl⟩)
      rw [hcalls.callee_eq] at hcallee
      cases hcallee
    | some callee =>
      refine .inr (.inl ⟨_, callee, hdefines, fun a b => ⟨?only, ?call⟩, rfl⟩)
      case only =>
        intro hcalls
        exact ⟨hcalls.caller_eq, Option.some.inj (hcalls.callee_eq.symm.trans hcallee)⟩
      case call =>
        rintro ⟨rfl, rfl⟩
        exact ⟨hn, hoff, rfl, hcallee⟩
  · rename_i hfun hcall
    have hdefines : ∀ a, ¬ o.Defines c.module n a := by
      rintro a ⟨name, hn, -⟩
      exact hfun name hn
    exact .inr (.inr ⟨hdefines, fun a b hcalls => hcall hcalls.call, rfl⟩)

theorem mem_edges_callGraphAfter {a b : String} :
    (a, b) ∈ (o.callGraphAfter c n).edges ↔
      (a, b) ∈ c.callGraph.edges ∨ o.Calls bindings c.module n a b := by
  rcases callGraphAfter_cases hclasses hfunctions hbindings with
    ⟨scope, -, hcalls, hgraph⟩ | ⟨caller, callee, -, hcalls, hgraph⟩ | ⟨-, hcalls, hgraph⟩
  · rw [hgraph, Digraph.mem_edges_addKey, or_iff_left (hcalls a b)]
  · rw [hgraph, Digraph.mem_edges_addEdge, hcalls]
  · rw [hgraph, or_iff_left (hcalls a b)]

theorem mem_keys_callGraphAfter {a : String} :
    a ∈ (o.callGraphAfter c n).keys ↔
      a ∈ c.callGraph.keys ∨ (∃ b, o.Calls bindings c.module n a b) ∨ o.Defines c.module n a := by
  rcases callGraphAfter_cases hclasses hfunctions hbindings with
    ⟨scope, hdefines, hcalls, hgraph⟩ | ⟨caller, callee, hdefines, hcalls, hgraph⟩ |
      ⟨hdefines, hcalls, hgraph⟩
  · rw [hgraph, Digraph.mem_keys_addKey, hdefines]
    exact or_congr_right (or_iff_right fun ⟨b, hb⟩ => hcalls a b hb).symm
  · rw [hgraph, Digraph.mem_keys_addEdge, or_iff_left (hdefines a)]
    simp [hcalls]
  · rw [hgraph, or_iff_left fun h => h.elim (fun ⟨b, hb⟩ => hcalls a b hb) (hdefines a)]

end Visit

/-- What the context holds after visiting some nodes. -/
structure Recorded (o : Outline) (module : String) (ns : List Nat) (c : ScopeContext) : Prop where
  module_eq : c.module = module
  aliases : ∀ id, c.aliases.get? id = lastBinding (ns.flatMap fun m => (o.construct m).bindings) id
  calls : ∀ a b, (a, b) ∈ c.callGraph.edges ↔ ∃ before n after, ns = before ++ n :: after ∧
    o.Calls (before.flatMap fun m => (o.construct m).bindings) module n a b
  scopes : ∀ a, a ∈ c.callGraph.keys ↔
    (∃ b, (a, b) ∈ c.callGraph.edges) ∨ ∃ n ∈ ns, o.Defines module n a
  imports : ∀ a b, (a, b) ∈ c.importGraph.edges ↔ a = module ∧ ∃ n ∈ ns, b ∈ (o.construct n).imports
  importers : ∀ a, a ∈ c.importGraph.keys ↔ ∃ b, (a, b) ∈ c.importGraph.edges

theorem recorded_nil (o : Outline) (module : String) : Recorded o module [] { module } where
  module_eq := rfl
  aliases _ := rfl
  calls := by simp
  scopes := by simp
  imports := by simp
  importers := by simp

theorem Recorded.record {module : String} {ns : List Nat} {c : ScopeContext} {n : Nat}
    (h : Recorded o module ns c) : Recorded o module (ns ++ [n]) (o.record c n) := by
  obtain rfl := h.module_eq
  have hrecord : o.record c n = _ := congrArg (fun v => v.1.bare) (visit_eq n _)
  have hedges : ∀ a b, (a, b) ∈ (o.record c n).callGraph.edges ↔
      (a, b) ∈ c.callGraph.edges ∨
        o.Calls (ns.flatMap fun m => (o.construct m).bindings) c.module n a b := by
    intro a b
    rw [hrecord]
    exact mem_edges_callGraphAfter (c := { c with
      classes := o.classesAround n, functions := o.functionsAround n }) rfl rfl h.aliases
  have himports : ∀ a b, (a, b) ∈ (o.record c n).importGraph.edges ↔
      (a, b) ∈ c.importGraph.edges ∨ a = c.module ∧ b ∈ (o.construct n).imports := by
    intro a b
    rw [hrecord]
    exact Digraph.mem_edges_foldl_addEdge _
  refine ⟨?module_eq, ?aliases, ?calls, ?scopes, ?imports, ?importers⟩
  case module_eq => rw [hrecord]; rfl
  case aliases =>
    intro id
    rw [List.flatMap_append, List.flatMap_singleton, lastBinding_append, ← h.aliases, hrecord]
    exact OrderedMap.get?_foldl_insert _ _ _
  case calls =>
    intro a b
    rw [hedges, h.calls]
    exact exists_split_concat.symm
  case scopes =>
    intro a
    have hkeys : a ∈ (o.record c n).callGraph.keys ↔ a ∈ c.callGraph.keys ∨
        (∃ b, o.Calls (ns.flatMap fun m => (o.construct m).bindings) c.module n a b) ∨
          o.Defines c.module n a := by
      rw [hrecord]
      exact mem_keys_callGraphAfter (c := { c with
        classes := o.classesAround n, functions := o.functionsAround n }) rfl rfl h.aliases
    simp only [hkeys, hedges, h.scopes, exists_or, List.mem_append, List.mem_singleton, or_and_right,
      exists_eq_left]
    exact or_or_or_comm
  case imports =>
    intro a b
    rw [himports, h.imports]
    simp only [List.mem_append, List.mem_singleton, or_and_right, exists_or, exists_eq_left,
      and_or_left]
  case importers =>
    intro a
    have hkeys : a ∈ (o.record c n).importGraph.keys ↔
        a ∈ c.importGraph.keys ∨ a = c.module ∧ ∃ b, b ∈ (o.construct n).imports := by
      rw [hrecord]
      exact Digraph.mem_keys_foldl_addEdge _
    simp only [hkeys, himports, h.importers, exists_or, exists_and_left]

theorem recorded_foldl (o : Outline) (module : String) (ns : List Nat) :
    Recorded o module ns (ns.foldl o.record { module }) := by
  induction ns using List.reverseRecOn with
  | nil => exact recorded_nil o module
  | append_singleton ns n ih =>
    rw [List.foldl_append]
    exact ih.record

/-- The visited calls are those under the bindings before them in the order of visits. -/
theorem WellNumbered.exists_isCall (h : WellNumbered o) {module a b : String} :
    (∃ before n after, o.visitOrder = before ++ n :: after ∧
        o.Calls (before.flatMap fun m => (o.construct m).bindings) module n a b) ↔
      ∃ n, o.IsCall module n a b := by
  constructor
  · rintro ⟨before, n, after, hsplit, hcalls⟩
    have hn : n ∈ o.visitOrder := by simp [hsplit]
    obtain ⟨hsize, hvisited⟩ := (mem_visitOrder_iff h).1 hn
    rw [← bindingsBefore_eq h hsplit] at hcalls
    exact ⟨n, hsize, hvisited, hcalls⟩
  · rintro ⟨n, hsize, hvisited, hcalls⟩
    obtain ⟨before, after, hsplit⟩ :=
      List.append_of_mem ((mem_visitOrder_iff h).2 ⟨hsize, hvisited⟩)
    rw [bindingsBefore_eq h hsplit] at hcalls
    exact ⟨before, n, after, hsplit, hcalls⟩

theorem WellNumbered.exists_isFunction (h : WellNumbered o) {module a : String} :
    (∃ n ∈ o.visitOrder, o.Defines module n a) ↔ ∃ n, o.IsFunction module n a := by
  refine exists_congr fun n => ⟨?_, ?_⟩
  · rintro ⟨hn, hdefines⟩
    obtain ⟨hsize, hvisited⟩ := (mem_visitOrder_iff h).1 hn
    exact ⟨hsize, hvisited, hdefines⟩
  · rintro ⟨hsize, hvisited, hdefines⟩
    exact ⟨(mem_visitOrder_iff h).2 ⟨hsize, hvisited⟩, hdefines⟩

theorem WellNumbered.exists_isImport (h : WellNumbered o) {b : String} :
    (∃ n ∈ o.visitOrder, b ∈ (o.construct n).imports) ↔ ∃ n, o.IsImport n b := by
  refine exists_congr fun n => ⟨?_, ?_⟩
  · rintro ⟨hn, hb⟩
    obtain ⟨hsize, hvisited⟩ := (mem_visitOrder_iff h).1 hn
    exact ⟨hsize, hvisited, hb⟩
  · rintro ⟨hsize, hvisited, hb⟩
    exact ⟨(mem_visitOrder_iff h).2 ⟨hsize, hvisited⟩, hb⟩

variable {maxDepth : Nat} {module : String} {r : WalkResult}

namespace Built

variable (ho : o.Built) (h : o.walk maxDepth module = .ok r)
include ho h

theorem exists_recorded : ∃ c, r = c.result ∧ Recorded o module o.visitOrder c :=
  ⟨_, ho.wellNumbered.eq_result_of_walk h, recorded_foldl o module o.visitOrder⟩

theorem mem_edges_callGraph {a b : String} :
    (a, b) ∈ r.callGraph.edges ↔ ∃ n, o.IsCall module n a b := by
  obtain ⟨c, rfl, hc⟩ := ho.exists_recorded h
  rw [← ho.wellNumbered.exists_isCall]
  exact hc.calls a b

theorem mem_keys_callGraph {a : String} :
    a ∈ r.callGraph.keys ↔
      (∃ n b, o.IsCall module n a b) ∨ ∃ n, o.IsFunction module n a := by
  have hkeys : a ∈ r.callGraph.keys ↔
      (∃ b, (a, b) ∈ r.callGraph.edges) ∨ ∃ n ∈ o.visitOrder, o.Defines module n a := by
    obtain ⟨c, rfl, hc⟩ := ho.exists_recorded h
    exact hc.scopes a
  rw [hkeys, ho.wellNumbered.exists_isFunction, exists_comm]
  simp only [ho.mem_edges_callGraph h]

theorem get?_aliases (id : String) : r.aliases.get? id = lastBinding o.allBindings id := by
  obtain ⟨c, rfl, hc⟩ := ho.exists_recorded h
  exact hc.aliases id

end Built

/-- The output of a walk, read off the outline. -/
theorem walk_output (ho : o.Built) (h : o.walk maxDepth module = .ok r) :
    r.module = module ∧
      (∀ a b, (a, b) ∈ r.callGraph.edges ↔ ∃ n, o.IsCall module n a b) ∧
      (∀ a, a ∈ r.callGraph.keys ↔
        (∃ n b, o.IsCall module n a b) ∨ ∃ n, o.IsFunction module n a) ∧
      (∀ a b, (a, b) ∈ r.importGraph.edges ↔ a = module ∧ ∃ n, o.IsImport n b) ∧
      (∀ a, a ∈ r.importGraph.keys ↔ a = module ∧ ∃ n b, o.IsImport n b) ∧
      ∀ id, r.aliases.get? id = lastBinding o.allBindings id := by
  refine ⟨?module, fun a b => ho.mem_edges_callGraph h, fun a => ho.mem_keys_callGraph h, ?imports,
    ?importers, ho.get?_aliases h⟩
  all_goals obtain ⟨c, rfl, hc⟩ := ho.exists_recorded h
  case module => exact hc.module_eq
  case imports =>
    intro a b
    rw [← ho.wellNumbered.exists_isImport]
    exact hc.imports a b
  case importers =>
    intro a
    have hkeys : a ∈ c.result.importGraph.keys ↔ ∃ b, (a, b) ∈ c.importGraph.edges := hc.importers a
    simp only [hkeys, hc.imports, exists_and_left, ho.wellNumbered.exists_isImport]
    rw [exists_comm]

/-- A name bound again inside of a function, a call in a class inside of that function, and a function
below an import that hides it. -/
def nestedScopes : Outline :=
  ((((((((((root.push 0 (.importFrom (some "lib") [⟨"helper", none⟩])).push
    0 (.classDef "Service")).push 2 (.functionDef "run")).push 3 .call).push 4 (.name "helper")).push
    3 (.importModules [⟨"fast", some "helper"⟩])).push 3 (.classDef "Inner")).push 7 .call).push
    8 (.name "helper")).push 0 (.importFrom none [])).push 10 (.functionDef "hidden")

theorem walk_output_nestedScopes :
    ∃ r, nestedScopes.walk 5 "app" = .ok r ∧
      r.callGraph.keys = ["app.Service.Inner.run", "app.Service.run"] ∧
      (∃ n, nestedScopes.IsCall "app" n "app.Service.run" "lib.helper") ∧
      (∃ n, nestedScopes.IsCall "app" n "app.Service.Inner.run" "fast") ∧
      ¬ ∃ n, nestedScopes.IsFunction "app" n "app.hidden" := by
  have hbuilt : nestedScopes.Built := by
    unfold nestedScopes
    repeat' first | exact .root | refine .push ?_ (by decide)
  have hgraph : (nestedScopes.walk 5 "app").map (fun r => (r.callGraph.keys, r.callGraph.edges)) =
      .ok (["app.Service.Inner.run", "app.Service.run"],
        [("app.Service.Inner.run", "fast"), ("app.Service.run", "lib.helper")]) := by rfl
  obtain ⟨r, hwalk, hgraph⟩ := exists_walk_of_map hgraph
  obtain ⟨hkeys, hedges⟩ := Prod.mk.inj hgraph
  obtain ⟨-, hcalls, hscopes, -⟩ := walk_output hbuilt hwalk
  refine ⟨r, hwalk, hkeys, (hcalls _ _).1 ?first, (hcalls _ _).1 ?second, fun hhidden => ?hidden⟩
  case first => rw [hedges]; decide
  case second => rw [hedges]; decide
  case hidden =>
    have hkey := (hscopes "app.hidden").2 (.inr hhidden)
    rw [hkeys] at hkey
    revert hkey
    decide

end Outline

end CallAtlas
