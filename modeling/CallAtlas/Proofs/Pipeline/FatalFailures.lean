import CallAtlas.Proofs.Pipeline.AcceptedCycles
import CallAtlas.Proofs.Pipeline.Rerun
/-!
# Failures that leave files as they are

A stage reads all it needs before it writes anything, and writing fails because of files alone. Any
other failure thus comes from what is read: from the path where a survey starts, or from the documents
of earlier stages. It is known from the tree which failure that is, and nothing in the tree has changed
after it, whatever is in the output directory.
-/

namespace CallAtlas

/-! ### Faults of what is read -/

/-- What a survey that starts at a path fails for. -/
inductive RootFault (t : FileTree) (root : Path) : Failure → Prop where
  /-- Nothing is there. -/
  | missing (habsent : t.hasEntry root = false) : RootFault t root (.pathNotFound root)
  /-- There is a file which is no source file. -/
  | unsupported (hfile : t.hasFile root = true) (hother : Language.isSource root = false) :
      RootFault t root (.unsupported root)

/-- What the reading of a document fails for, apart from files that cannot be read. -/
inductive DocumentFault (t : FileTree) (p : Path) (producer : Producer)
    (flaw? : String → Option DocumentFlaw) : Failure → Prop where
  /-- Nothing is there. -/
  | missing (habsent : t.hasEntry p = false) :
      DocumentFault t p producer flaw? (.missingArtifact p producer)
  /-- There is a text with a flaw. -/
  | malformed {text : String} {flaw : DocumentFlaw} (hread : t.readText p = .ok text)
      (hflaw : flaw? text = some flaw) : DocumentFault t p producer flaw? (.malformedDocument p flaw)

/-- The flaw of a text that is no document of graphs. -/
def GraphDocument.textFlaw? (text : String) : Option DocumentFlaw :=
  match read text with
  | .ok _ => none
  | .error e => some (.json e)

/-- The flaw of a text that is no list of cycles. -/
def CycleList.textFlaw? (text : String) : Option DocumentFlaw :=
  match read text with
  | .ok cs => (flaw? cs).map .cycle
  | .error e => some (.json e)

/-- The document of cycles that diagrams are drawn with. -/
def Artifacts.cyclesDocument? (a : Artifacts) (t : FileTree) (named : Option Path) : Option Path :=
  match named with
  | some path => some path
  | none => if t.hasEntry a.cyclesPath then some a.cyclesPath else none

/-- What the drawing of written graphs fails for, apart from files that cannot be read or written. -/
inductive ExportFault (t : FileTree) (graph : Path) (named : Option Path) (a : Artifacts) :
    Failure → Prop where
  | graph {e : Failure} (h : DocumentFault t graph .graph GraphDocument.textFlaw? e) :
      ExportFault t graph named a e
  /-- The graphs can be read, and the cycles cannot. -/
  | cycles {e : Failure} {text : String} {path : Path} (hread : t.readText graph = .ok text)
      (hflaw : GraphDocument.textFlaw? text = none) (hpath : a.cyclesDocument? t named = some path)
      (h : DocumentFault t path .cycles CycleList.textFlaw? e) : ExportFault t graph named a e

namespace Artifacts

variable {α : Type} {t u : FileTree} {p : Path} {producer : Producer} {e : Failure}

theorem does_readDocument_iff {text : String} :
    Does (readDocument p producer) t text u ↔ t.readText p = .ok text ∧ u = t := by
  constructor
  · intro h
    obtain rfl := eq_of_readDocument h
    obtain ⟨_, _, hget, h⟩ := h.exists_of_bind
    cases hget
    split at h
    · exact ⟨h.of_ask, rfl⟩
    · cases h
  · rintro ⟨h, rfl⟩
    have hthere := FileTree.hasEntry_of_hasFile (FileTree.hasFile_of_readText h)
    exact does_readDocument_of_readText hthere h producer

theorem fails_readDocument_iff (hfiles : ∀ fault, e ≠ .io fault) :
    Fails (readDocument p producer) t e u ↔
      (t.hasEntry p = false ∧ e = .missingArtifact p producer) ∧ u = t := by
  have hget : Fails (readDocument p producer) t e u ↔
      Fails (if t.hasEntry p then Action.ask (·.readText p)
        else throw (.missingArtifact p producer)) t e u :=
    Iff.of_eq (congrArg (· = _) (Does.get t).run_bind)
  rw [hget]
  cases hthere : t.hasEntry p with
  | true =>
    simp only [if_true, Bool.true_eq_false, false_and, iff_false]
    intro h
    obtain ⟨fault, rfl⟩ := FailsByFiles.ask _ _ _ _ h
    exact hfiles fault rfl
  | false =>
    simp only [Bool.false_eq_true, if_false, true_and]
    exact fails_throw_iff

/-- Texts are rejected for their flaws, and accepted if they have none. -/
structure Judges (decode : String → Action α) (p : Path) (flaw? : String → Option DocumentFlaw) :
    Prop where
  accepts : ∀ text, flaw? text = none → ∃ a, decode text = pure a
  rejects : ∀ text flaw, flaw? text = some flaw → decode text = throw (.malformedDocument p flaw)

namespace Judges

variable {flaw? : String → Option DocumentFlaw} {decode : String → Action α}

theorem fails_iff (hdecode : Judges decode p flaw?) {text : String} :
    Fails (decode text) t e u ↔
      (∃ flaw, flaw? text = some flaw ∧ e = .malformedDocument p flaw) ∧ u = t := by
  cases hflaw : flaw? text with
  | none =>
    obtain ⟨a, ha⟩ := hdecode.accepts text hflaw
    simp [ha, not_fails_pure]
  | some flaw =>
    rw [hdecode.rejects text flaw hflaw, fails_throw_iff]
    simp

theorem exists_does_iff (hdecode : Judges decode p flaw?) {text : String} :
    (∃ a, Does (decode text) t a u) ↔ flaw? text = none ∧ u = t := by
  constructor
  · rintro ⟨a, ha⟩
    cases hflaw : flaw? text with
    | none =>
      obtain ⟨b, hb⟩ := hdecode.accepts text hflaw
      rw [hb] at ha
      exact ⟨rfl, ha.eq_of_pure.2⟩
    | some flaw =>
      rw [hdecode.rejects text flaw hflaw] at ha
      cases ha
  · rintro ⟨hflaw, rfl⟩
    obtain ⟨b, hb⟩ := hdecode.accepts text hflaw
    exact ⟨b, hb ▸ .pure b u⟩

theorem exists_does_read_iff (hdecode : Judges decode p flaw?) :
    (∃ a, Does (readDocument p producer >>= decode) t a u) ↔
      (∃ text, t.readText p = .ok text ∧ flaw? text = none) ∧ u = t := by
  constructor
  · rintro ⟨a, ha⟩
    obtain ⟨text, v, hread, hdecoded⟩ := ha.exists_of_bind
    obtain ⟨htext, rfl⟩ := does_readDocument_iff.1 hread
    obtain ⟨hflaw, hu⟩ := hdecode.exists_does_iff.1 ⟨a, hdecoded⟩
    exact ⟨⟨text, htext, hflaw⟩, hu⟩
  · rintro ⟨⟨text, htext, hflaw⟩, rfl⟩
    obtain ⟨a, ha⟩ := hdecode.exists_does_iff.2 ⟨hflaw, rfl⟩
    exact ⟨a, (does_readDocument_iff.2 ⟨htext, rfl⟩).bind ha⟩

theorem fails_read_iff (hdecode : Judges decode p flaw?) (hfiles : ∀ fault, e ≠ .io fault) :
    Fails (readDocument p producer >>= decode) t e u ↔
      DocumentFault t p producer flaw? e ∧ u = t := by
  rw [fails_bind_iff, fails_readDocument_iff hfiles]
  constructor
  · rintro (⟨⟨habsent, rfl⟩, hu⟩ | ⟨text, v, hread, h⟩)
    · exact ⟨.missing habsent, hu⟩
    · obtain ⟨htext, rfl⟩ := does_readDocument_iff.1 hread
      obtain ⟨⟨flaw, hflaw, rfl⟩, hu⟩ := hdecode.fails_iff.1 h
      exact ⟨.malformed htext hflaw, hu⟩
  · rintro ⟨hfault, rfl⟩
    cases hfault with
    | missing habsent => exact .inl ⟨⟨habsent, rfl⟩, rfl⟩
    | malformed hread hflaw =>
      exact .inr ⟨_, u, does_readDocument_iff.2 ⟨hread, rfl⟩,
        hdecode.fails_iff.2 ⟨⟨_, hflaw, rfl⟩, rfl⟩⟩

end Judges

theorem judges_graph (p : Path) :
    Judges (fun text => match GraphDocument.read text with
      | .ok d => pure d
      | .error e => throw (.malformedDocument p (.json e))) p GraphDocument.textFlaw? := by
  constructor
  all_goals
    intro text
    unfold GraphDocument.textFlaw?
    cases GraphDocument.read text <;> simp

theorem fails_readGraph_iff (hfiles : ∀ fault, e ≠ .io fault) :
    Fails (readGraph p) t e u ↔ DocumentFault t p .graph GraphDocument.textFlaw? e ∧ u = t :=
  (judges_graph p).fails_read_iff hfiles

theorem judges_cycles (p : Path) :
    Judges (fun text => match CycleList.read text with
      | .error e => throw (.malformedDocument p (.json e))
      | .ok cs =>
        match CycleList.flaw? cs with
        | some flaw => throw (.malformedDocument p (.cycle flaw))
        | none => pure cs) p CycleList.textFlaw? := by
  constructor
  all_goals
    intro text
    unfold CycleList.textFlaw?
    cases CycleList.read text with
    | error e => simp
    | ok cs => cases h : CycleList.flaw? cs <;> simp [h]

theorem fails_readCycles_iff (hfiles : ∀ fault, e ≠ .io fault) :
    Fails (readCycles p) t e u ↔ DocumentFault t p .cycles CycleList.textFlaw? e ∧ u = t :=
  (judges_cycles p).fails_read_iff hfiles

end Artifacts

namespace Pipeline

open Artifacts

variable {t u : FileTree} {e : Failure}

theorem rootFault_iff {root : Path} :
    RootFault t root e ↔ t.hasEntry root = false ∧ .pathNotFound root = e ∨
      t.hasFile root = true ∧ Language.isSource root = false ∧ .unsupported root = e := by
  constructor
  · rintro (habsent | ⟨hfile, hother⟩)
    · exact .inl ⟨habsent, rfl⟩
    · exact .inr ⟨hfile, hother, rfl⟩
  · rintro (⟨habsent, rfl⟩ | ⟨hfile, hother, rfl⟩)
    · exact .missing habsent
    · exact .unsupported hfile hother

theorem discover_eq_error_iff {o : Survey.Options} {root : Path} :
    Survey.discover t o root = .error e ↔ RootFault t root e := by
  rw [rootFault_iff, Survey.discover, FileTree.hasEntry, FileTree.hasFile, FileTree.find?]
  cases t.resolve true root with
  | error fault => simp
  | ok found =>
    obtain ⟨q, entry⟩ := found
    cases entry with
    | none => simp
    | some entry =>
      cases entry with
      | file content => cases Language.isSource root <;> simp
      | directory => simp
      | link target => simp

theorem fails_surveyed_iff {o : Survey.Options} {root : Path} :
    Fails (surveyed o root) t e u ↔ RootFault t root e ∧ u = t := by
  rw [Fails, run_surveyed, Survey.run]
  cases hdiscover : Survey.discover t o root with
  | ok files =>
    constructor
    · intro h
      cases h
    · rintro ⟨hfault, -⟩
      cases hdiscover.symm.trans (discover_eq_error_iff.2 hfault)
  | error e' =>
    constructor
    · intro h
      cases h
      exact ⟨discover_eq_error_iff.1 hdiscover, rfl⟩
    · rintro ⟨hfault, rfl⟩
      cases hdiscover.symm.trans (discover_eq_error_iff.2 hfault)
      rfl

/-- The cycles that diagrams are drawn with. -/
def chosenCycles (a : Artifacts) (named : Option Path) : Action (List (List String)) := do
  match a.cyclesDocument? (← get) named with
  | some path => readCycles path
  | none => pure []

theorem exportFromArtifacts_eq_bind (graph : Path) (named : Option Path) (a : Artifacts)
    (format : Diagram.Format) :
    exportFromArtifacts graph named a format = readGraph graph >>= fun d =>
      chosenCycles a named >>= fun cs =>
        a.writeDiagrams format (Diagram.draw format d.calls (some d.imports) cs) := by
  unfold exportFromArtifacts chosenCycles cyclesDocument?
  cases named with
  | some path => rfl
  | none =>
    simp only [bind_assoc]
    refine congrArg (readGraph graph >>= ·) (funext fun d => ?_)
    refine congrArg (MonadState.get >>= ·) (funext fun t => ?_)
    cases t.hasEntry a.cyclesPath <;> rfl

/-- What diagrams are drawn with comes from the chosen document, if there is one. -/
theorem fails_chosenCycles_iff {a : Artifacts} {named : Option Path}
    (hfiles : ∀ fault, e ≠ .io fault) :
    Fails (chosenCycles a named) t e u ↔ (∃ path, a.cyclesDocument? t named = some path ∧
      DocumentFault t path .cycles CycleList.textFlaw? e) ∧ u = t := by
  have hrun : (chosenCycles a named).run t = (match a.cyclesDocument? t named with
    | some path => readCycles path
    | none => pure [] : Action (List (List String))).run t := (Does.get t).run_bind
  rw [Fails, hrun]
  cases a.cyclesDocument? t named with
  | none => exact iff_of_false not_fails_pure (by simp)
  | some path =>
    rw [← Fails, fails_readCycles_iff hfiles]
    simp only [Option.some.injEq, exists_eq_left']

theorem fails_exportFromArtifacts_iff {graph : Path} {named : Option Path} {a : Artifacts}
    {format : Diagram.Format} (hfiles : ∀ fault, e ≠ .io fault) :
    Fails (exportFromArtifacts graph named a format) t e u ↔
      ExportFault t graph named a e ∧ u = t := by
  have hdrawing : ∀ d : GraphDocument, Fails (chosenCycles a named >>= fun cs =>
      a.writeDiagrams format (Diagram.draw format d.calls (some d.imports) cs)) t e u ↔
      (∃ path, a.cyclesDocument? t named = some path ∧
        DocumentFault t path .cycles CycleList.textFlaw? e) ∧ u = t := fun d =>
    (FailsByFiles.fails_bind_iff (fun cs => failsByFiles_writeDiagrams _ _ _) hfiles).trans
      (fails_chosenCycles_iff hfiles)
  rw [exportFromArtifacts_eq_bind, fails_bind_iff, fails_readGraph_iff hfiles]
  constructor
  · rintro (⟨hfault, hu⟩ | ⟨d, v, hread, h⟩)
    · exact ⟨.graph hfault, hu⟩
    · obtain ⟨⟨text, htext, hflaw⟩, rfl⟩ := (judges_graph graph).exists_does_read_iff.1 ⟨d, hread⟩
      obtain ⟨⟨path, hpath, hfault⟩, hu⟩ := (hdrawing d).1 h
      exact ⟨.cycles htext hflaw hpath hfault, hu⟩
  · rintro ⟨hfault, rfl⟩
    cases hfault with
    | graph hfault => exact .inl ⟨hfault, rfl⟩
    | cycles htext hflaw hpath hfault =>
      obtain ⟨d, hread⟩ := (judges_graph graph).exists_does_read_iff.2 ⟨⟨_, htext, hflaw⟩, rfl⟩
      exact .inr ⟨d, u, hread, (hdrawing d).2 ⟨⟨_, hpath, hfault⟩, rfl⟩⟩

theorem fails_graphStage_iff {o : Survey.Options} {a : Artifacts} {root : Path}
    (hfiles : ∀ fault, e ≠ .io fault) :
    Fails (graphStage o a root) t e u ↔ RootFault t root e ∧ u = t := by
  refine (FailsByFiles.fails_bind_iff (fun aggregation => ?_) hfiles).trans fails_surveyed_iff
  exact (failsByFiles_writeGraph a _).bind fun _ => .pure _

theorem fails_run_iff {p : Plan} {root : Path} (hfiles : ∀ fault, e ≠ .io fault) :
    Fails (run p root) t e u ↔ RootFault t root e ∧ u = t := by
  refine (FailsByFiles.fails_bind_iff ?_ hfiles).trans (fails_graphStage_iff hfiles)
  rintro ⟨aggregation, graph⟩
  have hdrawn : ∀ (d : Diagram.Drawing) (report : List Path → Outcome), FailsByFiles
      (if p.stages.diagrams then do
          let third ← p.artifacts.writeDiagrams p.format d
          return report third
        else do
          let third ← pure []
          return report third) := by
    intro d report
    split
    · exact (failsByFiles_writeDiagrams _ _ _).bind fun _ => .pure _
    · exact (FailsByFiles.pure _).bind fun _ => .pure _
  dsimp only
  split
  · refine (failsByFiles_writeCycles _ _).bind fun _ => ?_
    exact (FailsByFiles.pure _).bind fun _ => hdrawn _ _
  · exact (FailsByFiles.pure _).bind fun _ => hdrawn _ _

theorem fails_cyclesFromArtifact_iff {graph : Path} {a : Artifacts} {source : CycleSource}
    {dedupe : Bool} (hfiles : ∀ fault, e ≠ .io fault) :
    Fails (cyclesFromArtifact graph a source dedupe) t e u ↔
      DocumentFault t graph .graph GraphDocument.textFlaw? e ∧ u = t := by
  refine (FailsByFiles.fails_bind_iff (fun d => ?_) hfiles).trans (fails_readGraph_iff hfiles)
  exact ((failsByFiles_writeCycles a _).bind fun _ => .pure _).bind fun _ => .pure _

/-- A stage fails for another reason than files just where there is a fault in what it reads, and then
all files and directories are as before. A survey reads the path where it starts, the search for cycles
a document of graphs, and the drawing of diagrams such a document and the chosen list of cycles. -/
theorem fails_iff_fault {e : Failure} (hfiles : ∀ fault, e ≠ .io fault) (t u : FileTree) :
    (∀ p root, Fails (run p root) t e u ↔ RootFault t root e ∧ u = t) ∧
    (∀ o a root, Fails (graphStage o a root) t e u ↔ RootFault t root e ∧ u = t) ∧
    (∀ graph a source dedupe, Fails (cyclesFromArtifact graph a source dedupe) t e u ↔
      DocumentFault t graph .graph GraphDocument.textFlaw? e ∧ u = t) ∧
    ∀ graph named a format, Fails (exportFromArtifacts graph named a format) t e u ↔
      ExportFault t graph named a e ∧ u = t := by
  refine ⟨fun p root => ?_, fun o a root => ?_, fun graph a source dedupe => ?_,
    fun graph named a format => ?_⟩
  · exact fails_run_iff hfiles
  · exact fails_graphStage_iff hfiles
  · exact fails_cyclesFromArtifact_iff hfiles
  · exact fails_exportFromArtifacts_iff hfiles

/-- An output directory with a path among its cycles that is not closed. -/
def spoiltOutput : FileTree :=
  ⟨.ofList [(["out"], .directory), (["out", "call_graph.json"], .file unsortedDocument.toUTF8),
    (["out", "cycles.json"], .file "[[\"a\", \"a\"], [\"a\", \"b\"]]".toUTF8),
    (["out", "diagrams"], .directory),
    (["out", "diagrams", "import_graph.mmd"], .file "graph TD\n".toUTF8)], []⟩

theorem readText_spoiltOutput :
    spoiltOutput.readText plainPlan.artifacts.graphPath = .ok unsortedDocument ∧
      spoiltOutput.readText plainPlan.artifacts.cyclesPath =
        .ok "[[\"a\", \"a\"], [\"a\", \"b\"]]" := by
  obtain ⟨hleads, -⟩ := leads_out (t := spoiltOutput) rfl rfl rfl
  exact ⟨hleads.readText_join isName_callGraph rfl, hleads.readText_join isName_cycles rfl⟩

theorem fails_iff_fault_spoilt :
    let a := plainPlan.artifacts
    let lost := a.directory.join "lost.json"
    (∀ u, Fails (run plainPlan lost) spoiltOutput (.pathNotFound lost) u ↔ u = spoiltOutput) ∧
    (∀ u, Fails (graphStage {} a a.graphPath) spoiltOutput (.unsupported a.graphPath) u ↔
      u = spoiltOutput) ∧
    (∀ u, Fails (cyclesFromArtifact lost a .callGraph true) spoiltOutput
      (.missingArtifact lost .graph) u ↔ u = spoiltOutput) ∧
    ∀ u, Fails (exportFromArtifacts a.graphPath none a .mermaid) spoiltOutput
      (.malformedDocument a.cyclesPath (.cycle (.notClosed 1))) u ↔ u = spoiltOutput := by
  intro a lost
  obtain ⟨hleads, -⟩ := leads_out (t := spoiltOutput) rfl rfl rfl
  obtain ⟨hgraph, hcycles⟩ := readText_spoiltOutput
  have habsent : spoiltOutput.hasEntry lost = false :=
    hleads.hasEntry_join (by decide) (fun _ h => by cases h)
  have hchosen : a.cyclesDocument? spoiltOutput none = some a.cyclesPath :=
    if_pos (FileTree.hasEntry_of_hasFile (FileTree.hasFile_of_readText hcycles))
  have hother : Language.isSource a.graphPath = false := by decide
  refine ⟨fun u => ?_, fun u => ?_, fun u => ?_, fun u => ?_⟩
  · obtain ⟨hrun, -⟩ := fails_iff_fault (e := .pathNotFound lost) (by simp) spoiltOutput u
    exact (hrun _ _).trans (and_iff_right (.missing habsent))
  · obtain ⟨-, hsurvey, -⟩ := fails_iff_fault (e := .unsupported a.graphPath) (by simp) spoiltOutput u
    exact (hsurvey _ _ _).trans
      (and_iff_right (.unsupported (FileTree.hasFile_of_readText hgraph) hother))
  · obtain ⟨-, -, hsearch, -⟩ :=
      fails_iff_fault (e := .missingArtifact lost .graph) (by simp) spoiltOutput u
    exact (hsearch _ _ _ _).trans (and_iff_right (.missing habsent))
  · obtain ⟨-, -, -, hexport⟩ := fails_iff_fault
      (e := .malformedDocument a.cyclesPath (.cycle (.notClosed 1))) (by simp) spoiltOutput u
    exact (hexport _ _ _ _).trans (and_iff_right
      (.cycles hgraph (by decide +kernel) hchosen (.malformed hcycles (by decide +kernel))))

end Pipeline

end CallAtlas
