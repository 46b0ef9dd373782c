import CallAtlas.Proofs.Files.Operations
import CallAtlas.Proofs.Survey.Contributions
/-!
# Scopes of several files

Files with the same scope run into each other when their graphs are merged. If they are files of one
module, the collisions tell so. Otherwise the name of one module begins with that of the other and a
dot, and nothing tells that the module and the classes in the other one share a name.
-/

namespace CallAtlas.Survey

variable {t : FileTree} {o : Options} {files : List Path} {p q : Path} {r s : WalkResult} {k : String}

/-- Two analyzed files are listed under one module exactly if they are files of one module. -/
theorem listed_together_iff (hp : p ∈ files) (hq : q ∈ files) (hne : p ≠ q)
    (hr : analyzeFile t o p = .ok r) (hs : analyzeFile t o q = .ok s) :
    (∃ module paths, (Aggregation.ofReports (reports t o files)).collisions.get? module =
        some paths ∧ p ∈ paths ∧ q ∈ paths) ↔ p.moduleName = q.moduleName := by
  constructor
  · rintro ⟨module, paths, hpaths, hpmem, hqmem⟩
    have hperm := collision_perm hpaths
    have hpmodule := (mem_contributors.1 (hperm.mem_iff.1 hpmem)).2.2
    have hqmodule := (mem_contributors.1 (hperm.mem_iff.1 hqmem)).2.2
    exact hpmodule.trans hqmodule.symm
  · intro hsame
    have hpmem : p ∈ contributors t o files p.moduleName := mem_contributors.2 ⟨hp, ⟨r, hr⟩, rfl⟩
    have hqmem : q ∈ contributors t o files p.moduleName :=
      mem_contributors.2 ⟨hq, ⟨s, hs⟩, hsame.symm⟩
    obtain ⟨paths, hpaths⟩ := exists_collision_iff.2 (two_le_length_of_mem hpmem hqmem hne)
    have hperm := collision_perm hpaths
    exact ⟨p.moduleName, paths, hpaths, hperm.mem_iff.2 hpmem, hperm.mem_iff.2 hqmem⟩

/-- A file of a module with a dot in its name, and two files of the module before the dot. -/
def dottedProject : FileTree :=
  ⟨.ofList [(["a.b.py"], .file "def f():\n    pass\n".toUTF8),
    (["a.py"], .file "class b:\n    def f():\n        pass\n".toUTF8),
    (["a.pyi"], .file "class b:\n    def f(): ...\n".toUTF8)], []⟩

theorem analyzeFile_dottedProject :
    (∃ r, analyzeFile dottedProject {} ⟨"a.b.py"⟩ = .ok r ∧ r.callGraph.keys = ["a.b.f"]) ∧
      (∃ r, analyzeFile dottedProject {} ⟨"a.py"⟩ = .ok r ∧ r.callGraph.keys = ["a.b.f"]) ∧
      ∃ r, analyzeFile dottedProject {} ⟨"a.pyi"⟩ = .ok r ∧ r.callGraph.keys = ["a.b.f"] := by
  have hdotted : dottedProject.readText ⟨"a.b.py"⟩ = .ok "def f():\n    pass\n" :=
    FileTree.readText_working (by decide) rfl
  have hsource : dottedProject.readText ⟨"a.py"⟩ =
      .ok "class b:\n    def f():\n        pass\n" :=
    FileTree.readText_working (by decide) rfl
  have hstub : dottedProject.readText ⟨"a.pyi"⟩ = .ok "class b:\n    def f(): ...\n" :=
    FileTree.readText_working (by decide) rfl
  refine ⟨exists_ok_of_toOption ?_, exists_ok_of_toOption ?_, exists_ok_of_toOption ?_⟩
  · rw [analyzeFile, hdotted]
    decide +kernel
  · rw [analyzeFile, hsource]
    decide +kernel
  · rw [analyzeFile, hstub]
    decide +kernel

/-- Two files share a scope without being listed together. -/
theorem dottedProject_not_listed :
    ∃ r s, analyzeFile dottedProject {} ⟨"a.b.py"⟩ = .ok r ∧
      analyzeFile dottedProject {} ⟨"a.py"⟩ = .ok s ∧
      "a.b.f" ∈ r.callGraph.keys ∧ "a.b.f" ∈ s.callGraph.keys ∧
      ¬ ∃ module paths, (Aggregation.ofReports (reports dottedProject {}
        [⟨"a.b.py"⟩, ⟨"a.py"⟩])).collisions.get? module = some paths ∧
          (⟨"a.b.py"⟩ : Path) ∈ paths ∧ (⟨"a.py"⟩ : Path) ∈ paths := by
  obtain ⟨⟨r, hr, hkr⟩, ⟨s, hs, hks⟩, -⟩ := analyzeFile_dottedProject
  refine ⟨r, s, hr, hs, by simp [hkr], by simp [hks], ?_⟩
  rw [listed_together_iff (by simp) (by simp) (by decide) hr hs]
  decide

/-- Two analyzed files with a scope in common are listed together among the collisions exactly if
they are files of one module, and otherwise the name of one module begins with that of the other and
a dot. So they are listed together if no dot is in the names of their modules. -/
theorem shared_scope_listed_or_dotted (hp : p ∈ files) (hq : q ∈ files) (hne : p ≠ q)
    (hr : analyzeFile t o p = .ok r) (hs : analyzeFile t o q = .ok s)
    (hkr : k ∈ r.callGraph.keys) (hks : k ∈ s.callGraph.keys) :
    let listed := ∃ module paths, (Aggregation.ofReports (reports t o files)).collisions.get?
      module = some paths ∧ p ∈ paths ∧ q ∈ paths
    (listed ↔ p.moduleName = q.moduleName) ∧
      (p.moduleName = q.moduleName ∨ Within p.moduleName q.moduleName ∨
        Within q.moduleName p.moduleName) ∧
      ('.' ∉ p.moduleName.toList → '.' ∉ q.moduleName.toList → listed) := by
  intro listed
  have hlisted : listed ↔ p.moduleName = q.moduleName := listed_together_iff hp hq hne hr hs
  have hwithin : Within p.moduleName k := (within_of_analyzeFile hr).2 k hkr
  have hwithin' : Within q.moduleName k := (within_of_analyzeFile hs).2 k hks
  have hrelated := eq_or_within_of_within hwithin hwithin'
  refine ⟨hlisted, hrelated, ?_⟩
  intro hpdot hqdot
  rcases hrelated with hsame | hin | hin
  · exact hlisted.2 hsame
  · exact absurd (dot_mem_of_within hin) hqdot
  · exact absurd (dot_mem_of_within hin) hpdot

theorem shared_scope_listed_dottedProject :
    ∃ module paths, (Aggregation.ofReports (reports dottedProject {}
        [⟨"a.b.py"⟩, ⟨"a.py"⟩, ⟨"a.pyi"⟩])).collisions.get? module = some paths ∧
      (⟨"a.py"⟩ : Path) ∈ paths ∧ (⟨"a.pyi"⟩ : Path) ∈ paths := by
  obtain ⟨-, ⟨r, hr, hkr⟩, ⟨s, hs, hks⟩⟩ := analyzeFile_dottedProject
  have hsource : (⟨"a.py"⟩ : Path) ∈ [⟨"a.b.py"⟩, ⟨"a.py"⟩, (⟨"a.pyi"⟩ : Path)] := by simp
  have hstub : (⟨"a.pyi"⟩ : Path) ∈ [⟨"a.b.py"⟩, ⟨"a.py"⟩, (⟨"a.pyi"⟩ : Path)] := by simp
  have hkr' : "a.b.f" ∈ r.callGraph.keys := by simp [hkr]
  have hks' : "a.b.f" ∈ s.callGraph.keys := by simp [hks]
  have hlisted := (shared_scope_listed_or_dotted hsource hstub (by decide) hr hs hkr' hks').2.2
  exact hlisted (by decide) (by decide)

end CallAtlas.Survey
