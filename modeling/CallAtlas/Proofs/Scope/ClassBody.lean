import CallAtlas.Proofs.Scope.Recorded
/-!
# Scopes that are no functions

The keys of a call graph are the scopes of the visited functions, and one more kind of scope: code
that stands directly in the body of a class inside of a function has the classes and functions around
it for a scope, which need not be the scope of any function. Without a class inside of a function the
keys are the scopes of the visited functions alone.
-/

namespace CallAtlas

/-- Whether a construct is neither a class nor a function. -/
@[simp] def Construct.isTransparent (c : Construct) : Bool :=
  c.className?.isNone && c.functionName?.isNone

namespace Outline

/-- The innermost class or function around a node is a class. -/
def InClassBody (o : Outline) (n : Nat) : Prop :=
  ∃ outer c inner name, o.ancestors n = outer ++ c :: inner ∧ o.construct c = .classDef name ∧
    ∀ a ∈ inner, (o.construct a).isTransparent = true

variable {o : Outline}

theorem exists_last_definition (o : Outline) (ns : List Nat) :
    (∀ a ∈ ns, (o.construct a).isTransparent = true) ∨
      ∃ outer d inner, ns = outer ++ d :: inner ∧ (o.construct d).isTransparent = false ∧
        ∀ a ∈ inner, (o.construct a).isTransparent = true := by
  induction ns using List.reverseRecOn with
  | nil => exact .inl fun a ha => absurd ha List.not_mem_nil
  | append_singleton ns n ih =>
    cases hn : (o.construct n).isTransparent with
    | false =>
      exact .inr ⟨ns, n, [], rfl, hn, fun a ha => absurd ha List.not_mem_nil⟩
    | true =>
      have hlast : ∀ as : List Nat, (∀ a ∈ as, (o.construct a).isTransparent = true) →
          ∀ a ∈ as ++ [n], (o.construct a).isTransparent = true := by
        intro as has a ha
        rcases List.mem_append.1 ha with ha | ha
        · exact has a ha
        · rwa [List.mem_singleton.1 ha]
      rcases ih with hall | ⟨outer, d, inner, rfl, hd, hinner⟩
      · exact .inl (hlast ns hall)
      · exact .inr ⟨outer, d, inner ++ [n], by simp, hd, hlast inner hinner⟩

theorem ancestors_of_split {n a : Nat} {outer inner : List Nat}
    (h : o.ancestors n = outer ++ a :: inner) : o.ancestors a = outer := by
  induction n using Nat.strong_induction_on generalizing inner with
  | _ n ih =>
    cases hp : o.parent? n with
    | none =>
      rw [ancestors_of_parent?_none hp] at h
      simp at h
    | some p =>
      rw [ancestors_of_parent? hp] at h
      rcases List.eq_nil_or_concat inner with rfl | ⟨inner', b, rfl⟩
      · obtain ⟨houter, hpa⟩ := List.append_inj' h rfl
        rw [← houter, List.singleton_inj.1 hpa]
      · rw [List.concat_eq_append, ← List.cons_append, ← List.append_assoc] at h
        exact ih p (parent?_lt hp) (List.append_inj' h rfl).1

theorem filterMap_of_transparent {β : Type} {f : Construct → Option β} {ns : List Nat}
    (hf : ∀ c : Construct, c.isTransparent = true → f c = none)
    (h : ∀ a ∈ ns, (o.construct a).isTransparent = true) :
    ns.filterMap (fun a => f (o.construct a)) = [] :=
  List.filterMap_eq_nil_iff.2 fun a ha => hf _ (h a ha)

section Innermost
variable {n d : Nat} {outer inner : List Nat} (hsplit : o.ancestors n = outer ++ d :: inner)
variable (hinner : ∀ a ∈ inner, (o.construct a).isTransparent = true)
include hsplit hinner

theorem classesAround_of_innermost :
    o.classesAround n = o.classesAround d ++ (o.construct d).className?.toList := by
  have hnone : inner.filterMap (fun a => (o.construct a).className?) = [] :=
    filterMap_of_transparent (fun c hc => by simp at hc; exact hc.1) hinner
  rw [classesAround, classesAround, ancestors_of_split hsplit, hsplit, List.filterMap_append,
    List.filterMap_cons, hnone]
  cases (o.construct d).className? <;> rfl

theorem functionsAround_of_innermost :
    o.functionsAround n = o.functionsAround d ++ (o.construct d).functionName?.toList := by
  have hnone : inner.filterMap (fun a => (o.construct a).functionName?) = [] :=
    filterMap_of_transparent (fun c hc => by simp at hc; exact hc.2) hinner
  rw [functionsAround, functionsAround, ancestors_of_split hsplit, hsplit, List.filterMap_append,
    List.filterMap_cons, hnone]
  cases (o.construct d).functionName? <;> rfl

end Innermost

variable {maxDepth : Nat} {module : String} {r : WalkResult}

/-- A call inside of a function stands in the body of a class, or has the scope of the innermost
function for its scope. -/
theorem IsCall.inClassBody_or_isFunction {n : Nat} {caller callee : String}
    (h : o.IsCall module n caller callee) :
    o.InClassBody n ∨ ∃ f, o.IsFunction module f caller := by
  rcases exists_last_definition o (o.ancestors n) with hnone | ⟨outer, d, inner, hsplit, hd, hinner⟩
  · have hoff : o.functionsAround n = [] :=
      filterMap_of_transparent (fun c hc => by simp at hc; exact hc.2) hnone
    exact absurd hoff h.calls.inside
  · have hmem : d ∈ o.ancestors n := by simp [hsplit]
    cases hconstruct : o.construct d with
    | classDef name => exact .inl ⟨outer, d, inner, name, hsplit, hconstruct, hinner⟩
    | functionDef name =>
      refine .inr ⟨d, Nat.lt_trans (lt_of_mem_ancestors hmem) h.lt_size, ?visited, name,
        hconstruct, ?scope⟩
      case visited =>
        intro a ha
        rw [ancestors_of_split hsplit] at ha
        exact h.visited a (by simp [hsplit, ha])
      case scope =>
        rw [h.calls.caller_eq, scopeAround, classesAround_of_innermost hsplit hinner,
          functionsAround_of_innermost hsplit hinner, hconstruct]
        simp
    | _ => simp [hconstruct] at hd

/-- A call in the body of a class that is defined inside of a function. -/
def classInFunction : Outline :=
  (((root.push 0 (.functionDef "run")).push 1 (.classDef "Inner")).push 2 .call).push 3 (.name "helper")

theorem built_classInFunction : classInFunction.Built :=
  .push (.push (.push (.push .root (by decide)) (by decide)) (by decide)) (by decide)

theorem classInFunction_not_isFunction (n : Nat) :
    ¬ classInFunction.IsFunction "app" n "app.Inner.run" := by
  rintro ⟨hsize, -, name, hname, hscope⟩
  have hlt : n < 5 := hsize
  match n, hlt with
  | 0, _ => cases hname
  | 1, _ =>
    have hancestors : classInFunction.ancestors 1 = [0] := by
      rw [ancestors_of_parent? (show classInFunction.parent? 1 = some 0 by decide), ancestors_zero]
      rfl
    cases hname
    rw [classesAround, functionsAround, hancestors] at hscope
    revert hscope
    decide
  | 2, _ => cases hname
  | 3, _ => cases hname
  | 4, _ => cases hname

theorem exists_walk_classInFunction :
    ∃ r, classInFunction.walk 4 "app" = .ok r ∧
      r.callGraph.keys = ["app.Inner.run", "app.run"] :=
  exists_walk_of_map (f := fun r => r.callGraph.keys) rfl

theorem classInFunction_key :
    ∃ r, classInFunction.Built ∧ classInFunction.walk 4 "app" = .ok r ∧
      "app.Inner.run" ∈ r.callGraph.keys ∧
      ¬ ∃ n, classInFunction.IsFunction "app" n "app.Inner.run" := by
  obtain ⟨r, hwalk, hkeys⟩ := exists_walk_classInFunction
  refine ⟨r, built_classInFunction, hwalk, ?_, fun ⟨n, hn⟩ => classInFunction_not_isFunction n hn⟩
  rw [hkeys]
  exact List.mem_cons_self

/-- The keys of a call graph are the scopes of the visited functions and those of the calls in the
bodies of classes inside of functions; without a class inside of a function they are the scopes of
the visited functions. -/
theorem walk_keys (ho : o.Built) (h : o.walk maxDepth module = .ok r) :
    (∀ a, a ∈ r.callGraph.keys ↔ (∃ n, o.IsFunction module n a) ∨
        ∃ n b, o.IsCall module n a b ∧ o.InClassBody n) ∧
      ((∀ c name, o.construct c = .classDef name → o.functionsAround c = []) →
        ∀ a, a ∈ r.callGraph.keys ↔ ∃ n, o.IsFunction module n a) := by
  have hkeys : ∀ a, a ∈ r.callGraph.keys ↔ (∃ n, o.IsFunction module n a) ∨
      ∃ n b, o.IsCall module n a b ∧ o.InClassBody n := by
    intro a
    rw [ho.mem_keys_callGraph h]
    constructor
    · rintro (⟨n, b, hcall⟩ | hfunction)
      · rcases hcall.inClassBody_or_isFunction with hbody | hfunction
        · exact .inr ⟨n, b, hcall, hbody⟩
        · exact .inl hfunction
      · exact .inl hfunction
    · rintro (hfunction | ⟨n, b, hcall, -⟩)
      · exact .inr hfunction
      · exact .inl ⟨n, b, hcall⟩
  refine ⟨hkeys, fun hclasses a => ?_⟩
  rw [hkeys, or_iff_left]
  rintro ⟨n, b, hcall, outer, c, inner, name, hsplit, hc, hinner⟩
  have hoff : o.functionsAround n = [] := by
    rw [functionsAround_of_innermost hsplit hinner, hclasses c name hc, hc]
    rfl
  exact hcall.calls.inside hoff

theorem walk_keys_classInFunction :
    ∃ r, classInFunction.walk 4 "app" = .ok r ∧
      r.callGraph.keys = ["app.Inner.run", "app.run"] ∧
      ∃ n b, classInFunction.IsCall "app" n "app.Inner.run" b ∧ classInFunction.InClassBody n := by
  obtain ⟨r, hwalk, hkeys⟩ := exists_walk_classInFunction
  have hmem := ((walk_keys built_classInFunction hwalk).1 "app.Inner.run").1 (by simp [hkeys])
  refine ⟨r, hwalk, hkeys, hmem.resolve_left ?_⟩
  rintro ⟨n, hn⟩
  exact classInFunction_not_isFunction n hn

end Outline

end CallAtlas
