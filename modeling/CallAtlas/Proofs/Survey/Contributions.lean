import CallAtlas.Proofs.Lists
import CallAtlas.Proofs.Ordered.Grouping
import CallAtlas.Proofs.Scope.WithinModule
import CallAtlas.Proofs.Survey.ReportOrder
import CallAtlas.Survey.Workers
/-!
# Contributions and failures

Reports are taken in the order of their paths. Those that bring a contribution make up the graphs and
the files of each module, the others make up the failures, and neither kind sees the other. A module
that several files contribute to is a collision and names them all.
-/

namespace CallAtlas.Survey

/-! ### The order of paths -/

theorem inOrder_filter (keep : Report → Bool) (rs : List Report) :
    inOrder (rs.filter keep) = (inOrder rs).filter keep :=
  mergeSort_filter isLE_trans isLE_total keep rs

/-! ### What reports add up to -/

namespace Aggregation

/-- The files and what they contribute, in the order of paths. -/
def contributions (rs : List Report) : List (Path × WalkResult) :=
  (inOrder rs).filterMap Report.contribution?

theorem foldl_add (rs : List Report) (a : Aggregation) :
    rs.foldl add a =
      { callGraph := (rs.filterMap Report.contribution?).foldl (fun g c => g.merge c.2.callGraph)
          a.callGraph
        importGraph := (rs.filterMap Report.contribution?).foldl
          (fun g c => g.merge c.2.importGraph) a.importGraph
        analyzed := a.analyzed + (rs.filterMap Report.contribution?).length
        failures := a.failures ++ rs.filterMap Report.failure?
        origins := (rs.filterMap Report.contribution?).foldl
          (fun m c => m.upsert c.2.module fun paths => paths.getD [] ++ [c.1]) a.origins } := by
  induction rs generalizing a with
  | nil => simp
  | cons r rs ih =>
    obtain ⟨path, outcome⟩ := r
    cases outcome with
    | ok result =>
      simp [ih, add, List.filterMap_cons, Report.contribution?, Report.failure?]
      omega
    | error e => simp [ih, add, List.filterMap_cons, Report.contribution?, Report.failure?]

/-- Contributions and failures go their separate ways. -/
theorem ofReports_eq (rs : List Report) :
    ofReports rs =
      { callGraph := (contributions rs).foldl (fun g c => g.merge c.2.callGraph) ∅
        importGraph := (contributions rs).foldl (fun g c => g.merge c.2.importGraph) ∅
        analyzed := (contributions rs).length
        failures := (inOrder rs).filterMap Report.failure?
        origins := .group (fun c => c.2.module) (fun c => c.1) (contributions rs) } := by
  show (inOrder rs).foldl add {} = _
  rw [foldl_add]
  simp [contributions, OrderedMap.group]

theorem get?_collisions_eq_some {rs : List Report} {module : String} {paths : List Path} :
    (ofReports rs).collisions.get? module = some paths ↔
      2 ≤ paths.length ∧
        paths = ((contributions rs).filter fun c => c.2.module = module).map (·.1) := by
  have hcollisions : (ofReports rs).collisions.get? module = some paths ↔
      (ofReports rs).origins.get? module = some paths ∧ 1 < paths.length := by
    rw [← OrderedMap.mem_entries_iff, ← OrderedMap.mem_entries_iff, collisions, List.mem_filter,
      decide_eq_true_eq]
  rw [hcollisions, ofReports_eq, OrderedMap.get?_group_eq_some]
  constructor
  · rintro ⟨⟨-, hpaths⟩, hlength⟩
    exact ⟨hlength, hpaths⟩
  · rintro ⟨hlength, hpaths⟩
    refine ⟨⟨?_, hpaths⟩, hlength⟩
    rintro rfl
    simp at hlength

end Aggregation

/-! ### Reports on files -/

variable {t : FileTree} {o : Options} {files : List Path} {p : Path} {r : WalkResult}

theorem within_of_analyzeFile (h : analyzeFile t o p = .ok r) :
    r.module = p.moduleName ∧ ∀ k ∈ r.callGraph.keys, Within p.moduleName k := by
  unfold analyzeFile at h
  split at h
  · cases h
  · split at h
    · cases h
    · split at h
      · cases h
      · split at h
        · cases h
        · rename_i hwalk
          cases h
          exact Outline.within_of_walk hwalk

theorem exists_ok_of_isOk {ε α : Type} {x : Except ε α} (h : x.isOk = true) : ∃ a, x = .ok a := by
  cases x with
  | ok a => exact ⟨a, rfl⟩
  | error e => cases h

theorem exists_ok_of_toOption {ε α β : Type} {x : Except ε α} {f : α → β} {b : β}
    (h : x.toOption.map f = some b) : ∃ a, x = .ok a ∧ f a = b := by
  cases x with
  | ok a => exact ⟨a, rfl, Option.some.inj h⟩
  | error e => cases h

theorem exists_error_of_isOk {ε α : Type} {x : Except ε α} (h : x.isOk = false) :
    ∃ e, x = .error e := by
  cases x with
  | ok a => cases h
  | error e => exact ⟨e, rfl⟩

/-- The files that contribute to a module. -/
def contributors (t : FileTree) (o : Options) (files : List Path) (module : String) : List Path :=
  files.filter fun p => (analyzeFile t o p).isOk && p.moduleName == module

theorem mem_contributors {module : String} :
    p ∈ contributors t o files module ↔
      p ∈ files ∧ (∃ r, analyzeFile t o p = .ok r) ∧ p.moduleName = module := by
  cases h : analyzeFile t o p <;> simp [contributors, h, Except.isOk, Except.toBool]

theorem map_contribution?_ofFile (t : FileTree) (o : Options) (p : Path) (module : String) :
    (((Report.ofFile t o p).contribution?.filter fun c => c.2.module = module).map (·.1)) =
      if (analyzeFile t o p).isOk && p.moduleName == module then some p else none := by
  cases h : analyzeFile t o p with
  | error e => simp [Report.ofFile, Report.contribution?, h, Except.isOk, Except.toBool]
  | ok r =>
    have hmodule := (within_of_analyzeFile h).1
    by_cases hm : p.moduleName = module
    · simp [Report.ofFile, Report.contribution?, h, Except.isOk, Except.toBool, hmodule, hm]
    · simp [Report.ofFile, Report.contribution?, h, Except.isOk, Except.toBool, hmodule, hm]

/-- The contributions to a module come from its contributors. -/
theorem map_contributions_perm (files : List Path) (module : String) :
    (((Aggregation.contributions (reports t o files)).filter fun c => c.2.module = module).map
      (·.1)).Perm (contributors t o files module) := by
  have hperm : (Aggregation.contributions (reports t o files)).Perm
      ((reports t o files).filterMap Report.contribution?) := (inOrder_perm _).filterMap _
  apply ((hperm.filter _).map _).trans
  apply List.Perm.of_eq
  rw [reports, List.filterMap_map, List.filter_filterMap, List.map_filterMap, contributors,
    ← List.filterMap_eq_filter]
  apply List.filterMap_congr
  intro p _
  exact map_contribution?_ofFile t o p module

theorem collision_perm {module : String} {paths : List Path}
    (h : (Aggregation.ofReports (reports t o files)).collisions.get? module = some paths) :
    paths.Perm (contributors t o files module) := by
  rw [(Aggregation.get?_collisions_eq_some.1 h).2]
  exact map_contributions_perm files module

theorem exists_collision_iff {module : String} :
    (∃ paths, (Aggregation.ofReports (reports t o files)).collisions.get? module = some paths) ↔
      2 ≤ (contributors t o files module).length := by
  simp only [Aggregation.get?_collisions_eq_some]
  rw [← (map_contributions_perm files module).length_eq]
  constructor
  · rintro ⟨paths, hlength, rfl⟩
    exact hlength
  · intro hlength
    exact ⟨_, hlength, rfl⟩

end CallAtlas.Survey
