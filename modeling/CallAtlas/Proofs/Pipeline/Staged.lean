import CallAtlas.Proofs.Pipeline.Artifacts
import CallAtlas.Proofs.Survey.Contributions
/-!
# Stage by stage or all at once

A full run hands graphs and cycles from one stage to the next. Stages that are run one by one read
them from the documents of earlier stages instead. Into an empty directory both leave behind the same
files with the same bytes.
-/

namespace CallAtlas.Pipeline

open Artifacts
open OrderedMap (lookup)
open CallAtlas.Path (IsName)
open Survey (Aggregation)

variable {t : FileTree} {a : Artifacts} {place : Place}

/-- Every stage behind the survey on its own, on what earlier stages have left behind. -/
def stagedRun (a : Artifacts) (aggregation : Aggregation) (format : Diagram.Format)
    (dedupe : Bool) : Action (List (List String) × List Path) := do
  let graph ← a.writeGraph aggregation.document
  let cs ← cyclesFromArtifact graph a .callGraph dedupe
  let written ← exportFromArtifacts graph none a format
  return (cs, written)

/-- The path leads to a directory in which there is nothing. The empty path stands for the working
directory. -/
structure IsEmptyDirectory (t : FileTree) (p : Path) (place : Place) : Prop where
  leads : p.text = "" ∧ place = t.working ∨ t.resolve true p = .ok (place, some .directory)
  empty : ∀ q ≠ [], t.entry? (place ++ q) = none

theorem IsEmptyDirectory.holds {p : Path} (h : IsEmptyDirectory t p place) :
    t.Holds p place [] := by
  constructor
  · rcases h.leads with ⟨hempty, rfl⟩ | hresolve
    · obtain ⟨text⟩ := p
      cases hempty
      exact t.leadsTo_empty
    · exact FileTree.leadsTo_of_resolve hresolve
  · exact h.empty

/-- The documents that stages leave behind in an output directory, the last one first. -/
def documents (aggregation : Aggregation) (dedupe : Bool) : List (Place × Entry) :=
  [(["cycles.json"], .file (CycleList.write (detectCycles aggregation.callGraph dedupe)).toUTF8),
    (["call_graph.json"], .file aggregation.document.write.toUTF8)]

/-- Everything that stages leave behind in an output directory. -/
def leftBehind (aggregation : Aggregation) (format : Diagram.Format) (dedupe : Bool) :
    List (Place × Entry) :=
  diagramFiles format
      (Diagram.draw format aggregation.callGraph (some aggregation.importGraph)
        (detectCycles aggregation.callGraph dedupe)) ++
    documents aggregation dedupe

theorem calls_document (aggregation : Aggregation) :
    aggregation.document.calls = aggregation.callGraph :=
  GraphDocument.calls_ofGraphs aggregation.callGraph aggregation.importGraph

theorem imports_document (aggregation : Aggregation) :
    aggregation.document.imports = aggregation.importGraph :=
  GraphDocument.imports_ofGraphs aggregation.callGraph aggregation.importGraph

theorem isName_callGraph : IsName "call_graph.json" := by decide

theorem isName_cycles : IsName "cycles.json" := by decide

section Stages
variable {aggregation : Aggregation}

theorem does_writeGraph (aggregation : Aggregation) (h : t.Holds a.directory place []) :
    ∃ u, Does (a.writeGraph aggregation.document) t a.graphPath u ∧
      u.Holds a.directory place
        [(["call_graph.json"], .file aggregation.document.write.toUTF8)] := by
  obtain ⟨u, hwrite, hu⟩ := does_writeDocument h isName_callGraph rfl aggregation.document.write
  exact ⟨u, hwrite.bind (.pure _ u), hu⟩

theorem does_writeCycles (dedupe : Bool) (h : t.Holds a.directory place
      [(["call_graph.json"], .file aggregation.document.write.toUTF8)]) :
    ∃ u, Does (a.writeCycles (detectCycles aggregation.callGraph dedupe)) t a.cyclesPath u ∧
      u.Holds a.directory place (documents aggregation dedupe) := by
  obtain ⟨u, hwrite, hu⟩ := does_writeDocument h isName_cycles (by simp [lookup])
    (CycleList.write (detectCycles aggregation.callGraph dedupe))
  exact ⟨u, hwrite.bind (.pure _ u), hu⟩

theorem does_writeDiagrams_documents {dedupe : Bool} (format : Diagram.Format)
    (h : t.Holds a.directory place (documents aggregation dedupe)) :
    ∃ written u,
      Does (a.writeDiagrams format (Diagram.draw format aggregation.callGraph
        (some aggregation.importGraph) (detectCycles aggregation.callGraph dedupe))) t written u ∧
      u.Holds a.directory place (leftBehind aggregation format dedupe) :=
  does_writeDiagrams h (fun rest => by simp [lookup, documents]) format _

theorem does_run {p : Plan} {root : Path} (h : t.Holds p.artifacts.directory place [])
    (hstages : p.stages = .all)
    (hsurvey : (Survey.run t p.survey root).1 = .ok aggregation) :
    ∃ written u,
      Does (run p root) t
        ⟨aggregation, some (detectCycles aggregation.callGraph p.dedupe), written⟩ u ∧
      u.Holds p.artifacts.directory place (leftBehind aggregation p.format p.dedupe) := by
  obtain ⟨t₁, hgraph, h₁⟩ := does_writeGraph aggregation h
  obtain ⟨t₂, hcycles, h₂⟩ := does_writeCycles p.dedupe h₁
  obtain ⟨written, t₃, hdiagrams, h₃⟩ := does_writeDiagrams_documents p.format h₂
  have hsurveyed : Does (surveyed p.survey root) t aggregation t := by
    apply (Does.get t).bind
    rw [hsurvey]
    exact .pure aggregation t
  refine ⟨p.artifacts.graphPath :: ([p.artifacts.cyclesPath] ++ written), t₃, ?_, h₃⟩
  have hstage : Does (graphStage p.survey p.artifacts root) t
      (aggregation, p.artifacts.graphPath) t₁ :=
    hsurveyed.bind (hgraph.bind (.pure _ t₁))
  apply hstage.bind
  dsimp only
  rw [hstages]
  apply hcycles.bind
  exact (Does.pure _ t₂).bind (hdiagrams.bind (.pure _ t₃))

theorem does_cyclesFromArtifact (dedupe : Bool) (h : t.Holds a.directory place
      [(["call_graph.json"], .file aggregation.document.write.toUTF8)]) :
    ∃ u, Does (cyclesFromArtifact a.graphPath a .callGraph dedupe) t
        (detectCycles aggregation.callGraph dedupe) u ∧
      u.Holds a.directory place (documents aggregation dedupe) := by
  obtain ⟨u, hcycles, hu⟩ := does_writeCycles dedupe h
  have hread : Does (Artifacts.readGraph a.graphPath) t aggregation.document t :=
    does_readGraph h isName_callGraph (by simp [lookup])
  refine ⟨u, hread.bind ?_, hu⟩
  dsimp only
  rw [calls_document]
  exact (hcycles.bind (.pure () u)).bind (.pure _ u)

theorem does_exportFromArtifacts {dedupe : Bool} (format : Diagram.Format)
    (h : t.Holds a.directory place (documents aggregation dedupe)) :
    ∃ written u, Does (exportFromArtifacts a.graphPath none a format) t written u ∧
      u.Holds a.directory place (leftBehind aggregation format dedupe) := by
  obtain ⟨written, u, hdiagrams, hu⟩ := does_writeDiagrams_documents format h
  have hgraph : Does (Artifacts.readGraph a.graphPath) t aggregation.document t :=
    does_readGraph h isName_callGraph (by simp [lookup, documents])
  have hentry : lookup ["cycles.json"] (documents aggregation dedupe) =
      some (.file (CycleList.write (detectCycles aggregation.callGraph dedupe)).toUTF8) := by
    simp [lookup, documents]
  have hcycles : Does (Artifacts.readCycles a.cyclesPath) t
      (detectCycles aggregation.callGraph dedupe) t :=
    does_readCycles h isName_cycles hentry
      (CycleList.flaw?_detectCycles aggregation.callGraph dedupe)
  have hthere : t.hasEntry a.cyclesPath = true := hasEntry_file h isName_cycles hentry
  refine ⟨written, u, hgraph.bind ?_, hu⟩
  apply (Does.get t).bind
  rw [if_pos hthere]
  apply hcycles.bind
  rw [calls_document, imports_document]
  exact hdiagrams

theorem does_stagedRun (aggregation : Aggregation) (format : Diagram.Format) (dedupe : Bool)
    (h : t.Holds a.directory place []) :
    ∃ written u,
      Does (stagedRun a aggregation format dedupe) t
        (detectCycles aggregation.callGraph dedupe, written) u ∧
      u.Holds a.directory place (leftBehind aggregation format dedupe) := by
  obtain ⟨t₁, hgraph, h₁⟩ := does_writeGraph aggregation h
  obtain ⟨t₂, hcycles, h₂⟩ := does_cyclesFromArtifact dedupe h₁
  obtain ⟨written, t₃, hexport, h₃⟩ := does_exportFromArtifacts format h₂
  exact ⟨written, t₃, hgraph.bind (hcycles.bind (hexport.bind (.pure _ t₃))), h₃⟩

end Stages

/-- A full run into an empty directory, and the stages one by one into another one, both succeed. They
find the same cycles and leave behind the same directories and files with the same bytes: the two
documents, the diagram of the calls, and that of the imports if there are any. -/
theorem run_agrees_with_stages {t u : FileTree} {p : Plan} {root : Path} {a : Artifacts}
    {aggregation : Aggregation} {place place' : Place} (hstages : p.stages = .all)
    (hsurvey : (Survey.run t p.survey root).1 = .ok aggregation)
    (ht : IsEmptyDirectory t p.artifacts.directory place)
    (hu : IsEmptyDirectory u a.directory place') :
    ∃ cs outcome written t' u',
      Does (run p root) t outcome t' ∧
      Does (stagedRun a aggregation p.format p.dedupe) u (cs, written) u' ∧
      outcome.aggregation = aggregation ∧ outcome.cycles = some cs ∧
      (∀ q ≠ [], t'.entry? (place ++ q) = u'.entry? (place' ++ q)) ∧
      ∀ q ≠ [], t'.entry? (place ++ q) = lookup q (leftBehind aggregation p.format p.dedupe) := by
  obtain ⟨_, t', hrun, ht'⟩ := does_run ht.holds hstages hsurvey
  obtain ⟨_, u', hstaged, hu'⟩ := does_stagedRun aggregation p.format p.dedupe hu.holds
  refine ⟨_, _, _, t', u', hrun, hstaged, rfl, rfl, ?_, ht'.entry?_eq⟩
  intro q hq
  rw [ht'.entry?_eq q hq, hu'.entry?_eq q hq]

/-! ### Projects of one file -/

/-- What one file adds up to. -/
theorem survey_of_discover {o : Survey.Options} {root path : Path} {r : WalkResult}
    (hdiscover : Survey.discover t o root = .ok [path])
    (hanalyze : Survey.analyzeFile t o path = .ok r) :
    (Survey.run t o root).1 = .ok (Aggregation.add {} ⟨path, .ok r⟩) := by
  rw [Survey.run, hdiscover]
  simp only [Survey.reports, List.map_cons, List.map_nil, Survey.Report.ofFile, hanalyze,
    Aggregation.ofReports, List.mergeSort_singleton, List.foldl_cons, List.foldl_nil]

/-- A project of one file, in which a function calls itself, and two empty directories. -/
def recursiveProject : FileTree :=
  ⟨.ofList [(["app.py"], .file "def run():\n    run()\n".toUTF8), (["copy"], .directory),
    (["out"], .directory)], []⟩

theorem isName_source : IsName "app.py" := by decide

theorem analyzeFile_recursiveProject :
    ∃ r, Survey.analyzeFile recursiveProject {} ⟨"app.py"⟩ = .ok r ∧
      r.callGraph = .ofEdges [("app.run", "app.run")] ∧ r.importGraph = ∅ := by
  have hread : recursiveProject.readText ⟨"app.py"⟩ = .ok "def run():\n    run()\n" :=
    recursiveProject.leadsTo_empty.readText_join isName_source rfl
  have hknown : Language.isSource ⟨"app.py"⟩ = true := by decide
  have hmodule : Path.moduleName ⟨"app.py"⟩ = "app" := by decide
  have hgraphs : (Survey.analyzeFile recursiveProject {} ⟨"app.py"⟩).toOption.map
      (fun r => (r.callGraph, r.importGraph)) = some (.ofEdges [("app.run", "app.run")], ∅) := by
    rw [Survey.analyzeFile, hread, hknown, hmodule]
    decide +kernel
  obtain ⟨r, hanalyze, hgraphs⟩ := Survey.exists_ok_of_toOption hgraphs
  exact ⟨r, hanalyze, Prod.mk.inj hgraphs⟩

theorem exists_survey_recursiveProject :
    ∃ aggregation, (Survey.run recursiveProject {} ⟨"app.py"⟩).1 = .ok aggregation ∧
      detectCycles aggregation.callGraph true = [["app.run", "app.run"]] ∧
      aggregation.importGraph = ∅ := by
  obtain ⟨r, hanalyze, hcalls, himports⟩ := analyzeFile_recursiveProject
  have hresolve : recursiveProject.resolve true ⟨"app.py"⟩ = .ok (["app.py"], _) :=
    recursiveProject.leadsTo_empty.resolve_join isName_source (fun _ h => by cases h) true
  have hdiscover : Survey.discover recursiveProject {} ⟨"app.py"⟩ = .ok [⟨"app.py"⟩] := by
    rw [Survey.discover, hresolve]
    rfl
  refine ⟨_, survey_of_discover hdiscover hanalyze, ?_, ?_⟩
  · simp only [Aggregation.add, hcalls]
    decide +kernel
  · simp only [Aggregation.add, himports]
    rfl

theorem isEmptyDirectory_recursiveProject :
    IsEmptyDirectory recursiveProject ⟨"out"⟩ ["out"] ∧
      IsEmptyDirectory recursiveProject ⟨"copy"⟩ ["copy"] := by
  have habsent : ∀ place q, place = "out" ∨ place = "copy" → q ≠ [] →
      recursiveProject.entry? ([place] ++ q) = none := by
    intro place q hplace hq
    show (OrderedMap.ofList _).get? _ = none
    rw [OrderedMap.get?_ofList]
    rcases hplace with rfl | rfl <;> simp [hq.symm]
  have hout : IsName "out" := by decide
  have hcopy : IsName "copy" := by decide
  constructor
  · refine ⟨.inr ?_, fun q => habsent "out" q (.inl rfl)⟩
    exact recursiveProject.leadsTo_empty.resolve_join hout (fun _ h => by cases h) true
  · refine ⟨.inr ?_, fun q => habsent "copy" q (.inr rfl)⟩
    exact recursiveProject.leadsTo_empty.resolve_join hcopy (fun _ h => by cases h) true

/-- Both ways write the cycle and no diagram of imports. -/
theorem run_agrees_with_stages_recursive :
    ∃ aggregation outcome result t u,
      (Survey.run recursiveProject {} ⟨"app.py"⟩).1 = .ok aggregation ∧
      Does (run ⟨{}, ⟨⟨"out"⟩⟩, .all, .dot, true⟩ ⟨"app.py"⟩) recursiveProject outcome t ∧
      Does (stagedRun ⟨⟨"copy"⟩⟩ aggregation .dot true) recursiveProject result u ∧
      (∀ q ≠ [], t.entry? ("out" :: q) = u.entry? ("copy" :: q)) ∧
      u.entry? ["copy", "cycles.json"] =
        some (.file (CycleList.write [["app.run", "app.run"]]).toUTF8) ∧
      u.entry? ["copy", "diagrams", "import_graph.dot"] = none := by
  obtain ⟨aggregation, hsurvey, hcycles, himports⟩ := exists_survey_recursiveProject
  obtain ⟨hout, hcopy⟩ := isEmptyDirectory_recursiveProject
  obtain ⟨cs, outcome, written, t, u, hrun, hstaged, -, -, hagree, hfiles⟩ :=
    run_agrees_with_stages (p := ⟨{}, ⟨⟨"out"⟩⟩, .all, .dot, true⟩) (a := ⟨⟨"copy"⟩⟩) rfl hsurvey hout
      hcopy
  have hlisted : ∀ q ≠ [], u.entry? ("copy" :: q) = lookup q (leftBehind aggregation .dot true) :=
    fun q hq => (hagree q hq).symm.trans (hfiles q hq)
  have hnone : (Diagram.draw .dot aggregation.callGraph (some aggregation.importGraph)
      (detectCycles aggregation.callGraph true)).importGraph = none := by
    rw [himports]
    rfl
  refine ⟨aggregation, outcome, _, t, u, hsurvey, hrun, hstaged, hagree, ?_, ?_⟩
  · rw [hlisted _ (List.cons_ne_nil _ _), ← hcycles]
    simp [leftBehind, documents, Artifacts.diagramFiles, hnone, lookup]
  · rw [hlisted _ (List.cons_ne_nil _ _)]
    simp [leftBehind, documents, Artifacts.diagramFiles, hnone, lookup, Diagram.Format.extension]

end CallAtlas.Pipeline
