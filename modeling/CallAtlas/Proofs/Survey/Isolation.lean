import CallAtlas.Proofs.Files.Operations
import CallAtlas.Proofs.Survey.Contributions
import Mathlib.Data.List.Permutation
/-!
# Failures leave no trace

A survey whose files partly fail has the graphs, the collisions and the number of files of a survey
without the failing ones. The failing files are listed, and every file is accounted for once.
-/

namespace CallAtlas.Survey

variable {t : FileTree} {o : Options} {files : List Path}

theorem reports_filter_isOk :
    reports t o (files.filter fun p => (analyzeFile t o p).isOk) =
      (reports t o files).filter fun r => r.outcome.isOk := by
  rw [reports, reports, List.filter_map]
  rfl

namespace Aggregation

theorem contributions_filter_isOk (rs : List Report) :
    contributions (rs.filter fun r => r.outcome.isOk) = contributions rs := by
  rw [contributions, contributions, inOrder_filter, List.filterMap_filter]
  apply List.filterMap_congr
  rintro ⟨path, outcome⟩ -
  cases outcome <;> rfl

theorem length_contributions_add (rs : List Report) :
    (contributions rs).length + ((inOrder rs).filterMap Report.failure?).length = rs.length := by
  have hsplit : ∀ us : List Report,
      (us.filterMap Report.contribution?).length + (us.filterMap Report.failure?).length =
        us.length := by
    intro us
    induction us with
    | nil => rfl
    | cons u us ih =>
      obtain ⟨path, outcome⟩ := u
      cases outcome with
      | ok result =>
        simp only [List.filterMap_cons, Report.contribution?, Report.failure?, List.length_cons]
        omega
      | error e =>
        simp only [List.filterMap_cons, Report.contribution?, Report.failure?, List.length_cons]
        omega
  rw [contributions, hsplit, (inOrder_perm rs).length_eq]

theorem path_of_contribution? {r : Report} {c : Path × WalkResult} (h : r.contribution? = some c) :
    c.1 = r.path := by
  obtain ⟨path, outcome⟩ := r
  cases outcome with
  | ok result =>
    cases h
    rfl
  | error e => cases h

theorem path_of_failure? {r : Report} {f : Path × Failure} (h : r.failure? = some f) :
    f.1 = r.path := by
  obtain ⟨path, outcome⟩ := r
  cases outcome with
  | ok result => cases h
  | error e =>
    cases h
    rfl

theorem ascending_contributions (rs : List Report) :
    (contributions rs).Pairwise fun c d => (compare c.1 d.1).isLE = true := by
  apply (ascending_inOrder rs).filterMap
  intro r s hrs c hc d hd
  rwa [path_of_contribution? hc, path_of_contribution? hd]

theorem ascending_failures (rs : List Report) :
    (ofReports rs).failures.Pairwise fun e f => (compare e.1 f.1).isLE = true := by
  rw [ofReports_eq]
  apply (ascending_inOrder rs).filterMap
  intro r s hrs e he f hf
  rwa [path_of_failure? he, path_of_failure? hf]

theorem ascending_collision {rs : List Report} {module : String} {paths : List Path}
    (h : (ofReports rs).collisions.get? module = some paths) :
    paths.Pairwise fun p q => (compare p q).isLE = true := by
  rw [(get?_collisions_eq_some.1 h).2, List.pairwise_map]
  exact (ascending_contributions rs).filter _

end Aggregation

theorem failures_perm (files : List Path) :
    (Aggregation.ofReports (reports t o files)).failures.Perm
      (files.filterMap fun p => (Report.ofFile t o p).failure?) := by
  rw [Aggregation.ofReports_eq]
  apply ((inOrder_perm _).filterMap _).trans
  rw [reports, List.filterMap_map]
  exact .refl _

theorem failure?_ofFile_eq_some {p : Path} {f : Path × Failure} :
    (Report.ofFile t o p).failure? = some f ↔ ∃ e, analyzeFile t o p = .error e ∧ f = (p, e) := by
  cases h : analyzeFile t o p with
  | ok r => simp [Report.ofFile, Report.failure?, h]
  | error e => simp [Report.ofFile, Report.failure?, h, eq_comm]

theorem isPartial_iff :
    (Aggregation.ofReports (reports t o files)).isPartial = true ↔
      ∃ p ∈ files, ∃ e, analyzeFile t o p = .error e := by
  have hfailures : (Aggregation.ofReports (reports t o files)).isPartial = true ↔
      ∃ f, f ∈ (Aggregation.ofReports (reports t o files)).failures := by
    rw [Aggregation.isPartial, Bool.not_eq_true', List.isEmpty_eq_false_iff_exists_mem]
  rw [hfailures]
  simp only [(failures_perm files).mem_iff, List.mem_filterMap, failure?_ofFile_eq_some]
  constructor
  · rintro ⟨f, p, hp, e, he, -⟩
    exact ⟨p, hp, e, he⟩
  · rintro ⟨p, hp, e, he⟩
    exact ⟨(p, e), p, hp, e, he, rfl⟩

/-- A survey of some files, of which any may fail, ends with a result once the files are found. It
has the graphs, the collisions and the number of analyzed files of the survey without the failing
files; its failures are those of the failing files, in the order of paths; together these are all the
files. The collisions are the modules with several contributors, each with all of them in the order
of paths. -/
theorem failures_leave_no_trace (t : FileTree) (o : Options) (files : List Path) :
    let a := Aggregation.ofReports (reports t o files)
    let b := Aggregation.ofReports
      (reports t o (files.filter fun p => (analyzeFile t o p).isOk))
    (∀ root, (run t o root).1 =
      (discover t o root).map fun found => .ofReports (reports t o found)) ∧
    (a.callGraph = b.callGraph ∧ a.importGraph = b.importGraph ∧ a.collisions = b.collisions ∧
      a.analyzed = b.analyzed) ∧
    (a.failures.Perm (files.filterMap fun p => (Report.ofFile t o p).failure?) ∧
      a.failures.Pairwise fun e f => (compare e.1 f.1).isLE = true) ∧
    a.analyzed + a.failures.length = files.length ∧
    (∀ module, (∃ paths, a.collisions.get? module = some paths) ↔
      2 ≤ (contributors t o files module).length) ∧
    (∀ module paths, a.collisions.get? module = some paths →
      paths.Perm (contributors t o files module) ∧
        paths.Pairwise fun p q => (compare p q).isLE = true) ∧
    (a.isPartial = true ↔ ∃ p ∈ files, ∃ e, analyzeFile t o p = .error e) := by
  intro a b
  have hrun : ∀ root, (run t o root).1 =
      (discover t o root).map fun found => .ofReports (reports t o found) := by
    intro root
    rw [run]
    cases discover t o root <;> rfl
  have hsame : a.callGraph = b.callGraph ∧ a.importGraph = b.importGraph ∧
      a.collisions = b.collisions ∧ a.analyzed = b.analyzed := by
    have hcontributions := Aggregation.contributions_filter_isOk (reports t o files)
    simp only [a, b, reports_filter_isOk, Aggregation.ofReports_eq, hcontributions,
      Aggregation.collisions, and_self]
  have hcount : a.analyzed + a.failures.length = files.length := by
    have hreports := Aggregation.length_contributions_add (reports t o files)
    simpa only [a, Aggregation.ofReports_eq, reports, List.length_map] using hreports
  refine ⟨hrun, hsame, ⟨failures_perm files, Aggregation.ascending_failures _⟩, hcount,
    fun module => exists_collision_iff, ?_, isPartial_iff⟩
  intro module paths hpaths
  exact ⟨collision_perm hpaths, Aggregation.ascending_collision hpaths⟩

/-- A file that does not parse between two files of one module. -/
def brokenProject : FileTree :=
  ⟨.ofList [(["bad.py"], .file "def broken(:\n".toUTF8),
    (["util.py"], .file "def run():\n    load()\n".toUTF8),
    (["util.pyi"], .file "def run(): ...\n".toUTF8)], []⟩

theorem analyzeFile_brokenProject :
    (∃ r, analyzeFile brokenProject {} ⟨"util.py"⟩ = .ok r) ∧
      (∃ r, analyzeFile brokenProject {} ⟨"util.pyi"⟩ = .ok r) ∧
      ∃ e, analyzeFile brokenProject {} ⟨"bad.py"⟩ = .error e := by
  have hsource : brokenProject.readText ⟨"util.py"⟩ = .ok "def run():\n    load()\n" :=
    FileTree.readText_working (by decide) rfl
  have hstub : brokenProject.readText ⟨"util.pyi"⟩ = .ok "def run(): ...\n" :=
    FileTree.readText_working (by decide) rfl
  have hbad : brokenProject.readText ⟨"bad.py"⟩ = .ok "def broken(:\n" :=
    FileTree.readText_working (by decide) rfl
  refine ⟨exists_ok_of_isOk ?_, exists_ok_of_isOk ?_, exists_error_of_isOk ?_⟩
  · rw [analyzeFile, hsource]
    decide +kernel
  · rw [analyzeFile, hstub]
    decide +kernel
  · rw [analyzeFile, hbad]
    decide +kernel

theorem failures_leave_no_trace_brokenProject :
    let a := Aggregation.ofReports
      (reports brokenProject {} [⟨"util.pyi"⟩, ⟨"bad.py"⟩, ⟨"util.py"⟩])
    a.isPartial = true ∧ a.analyzed = 2 ∧ a.failures.map (·.1) = [⟨"bad.py"⟩] ∧
      a.collisions.get? "util" = some [⟨"util.py"⟩, ⟨"util.pyi"⟩] := by
  intro a
  obtain ⟨⟨r, hsource⟩, ⟨s, hstub⟩, e, hbad⟩ := analyzeFile_brokenProject
  obtain ⟨-, -, ⟨hfailures, -⟩, hcount, hexists, hcollision, hpartial⟩ :=
    failures_leave_no_trace brokenProject {} [⟨"util.pyi"⟩, ⟨"bad.py"⟩, ⟨"util.py"⟩]
  have hlisted : a.failures = [(⟨"bad.py"⟩, e)] := by
    apply List.perm_singleton.1
    apply hfailures.trans
    simp [Report.ofFile, Report.failure?, hsource, hstub, hbad]
  have hcontributors :
      contributors brokenProject {} [⟨"util.pyi"⟩, ⟨"bad.py"⟩, ⟨"util.py"⟩] "util" =
        [⟨"util.pyi"⟩, ⟨"util.py"⟩] := by
    have hstem : Path.moduleName ⟨"util.py"⟩ = "util" ∧ Path.moduleName ⟨"util.pyi"⟩ = "util" := by
      decide
    simp [contributors, Except.isOk, Except.toBool, hsource, hstub, hbad, hstem]
  obtain ⟨paths, hpaths⟩ := (hexists "util").2 (by simp [hcontributors])
  obtain ⟨hperm, hascending⟩ := hcollision "util" paths hpaths
  rw [hcontributors] at hperm
  refine ⟨hpartial.2 ⟨⟨"bad.py"⟩, by simp, e, hbad⟩, ?_, ?_, ?_⟩
  · simpa [a, hlisted] using hcount
  · simp [hlisted]
  · have horders : paths = [⟨"util.pyi"⟩, ⟨"util.py"⟩] ∨ paths = [⟨"util.py"⟩, ⟨"util.pyi"⟩] := by
      simpa [List.permutations] using List.mem_permutations.2 hperm
    rcases horders with rfl | rfl
    · revert hascending
      decide
    · exact hpaths

end CallAtlas.Survey
