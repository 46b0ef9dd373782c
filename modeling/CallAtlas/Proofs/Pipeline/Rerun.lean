import CallAtlas.Proofs.Pipeline.Saving
import CallAtlas.Proofs.Survey.Unaffected
/-!
# Running again

A full run that has succeeded can be run again with nothing to show for it: the report is the same, and
so is every file. What it leaves behind does not depend on artifacts of earlier runs either. Both hold
also where the output directory is part of what is surveyed, since a survey looks at none of the
artifacts, unless a link leads it to one.
-/

namespace CallAtlas

/-! ### Actions that fail -/

/-- The action fails in no other way than because of files. -/
def FailsByFiles {α : Type} (x : Action α) : Prop :=
  ∀ t e u, x.run t = (.error e, u) → ∃ fault, e = .io fault

namespace FailsByFiles

variable {α β : Type} {x : Action α} {f : α → Action β} {t u : FileTree} {e : Failure}

theorem pure (a : α) : FailsByFiles (Pure.pure a) := fun _ _ _ h => nomatch h

theorem bind (hx : FailsByFiles x) (hf : ∀ a, FailsByFiles (f a)) : FailsByFiles (x >>= f) := by
  intro t e u h
  rcases CallAtlas.fails_bind_iff.1 h with h | ⟨a, v, -, h⟩
  · exact hx t e u h
  · exact hf a v e u h

theorem change (f : FileTree → Except Files.Fault FileTree) : FailsByFiles (Action.change f) := by
  intro t e u h
  rw [Action.change, (Does.get t).run_bind] at h
  cases hf : f t with
  | ok v =>
    rw [hf] at h
    cases h
  | error fault =>
    rw [hf] at h
    cases h
    exact ⟨fault, rfl⟩

theorem ask (f : FileTree → Except Files.Fault α) : FailsByFiles (Action.ask f) := by
  intro t e u h
  rw [Action.ask, (Does.get t).run_bind] at h
  cases hf : f t with
  | ok a =>
    rw [hf] at h
    cases h
  | error fault =>
    rw [hf] at h
    cases h
    exact ⟨fault, rfl⟩

theorem get : FailsByFiles (MonadState.get : Action FileTree) := fun _ _ _ h => nomatch h

/-- Where the rest of a sequence fails by files alone, any other failure is one of its first part. -/
theorem fails_bind_iff (hf : ∀ a, FailsByFiles (f a))
    (hfiles : ∀ fault, e ≠ .io fault) : Fails (x >>= f) t e u ↔ Fails x t e u := by
  rw [CallAtlas.fails_bind_iff]
  constructor
  · rintro (h | ⟨a, v, -, h⟩)
    · exact h
    · obtain ⟨fault, rfl⟩ := hf a v e u h
      exact absurd rfl (hfiles fault)
  · exact .inl

end FailsByFiles

namespace Artifacts

theorem failsByFiles_writeDocument (p : Path) (text : String) :
    FailsByFiles (writeDocument p text) := by
  unfold writeDocument
  cases p.parent? with
  | none => exact .change _
  | some directory =>
    dsimp only
    split
    · exact .bind (.change _) fun _ => .change _
    · exact .change _

theorem failsByFiles_writeGraph (a : Artifacts) (d : GraphDocument) :
    FailsByFiles (a.writeGraph d) :=
  (failsByFiles_writeDocument _ _).bind fun _ => .pure _

theorem failsByFiles_writeCycles (a : Artifacts) (cs : List (List String)) :
    FailsByFiles (a.writeCycles cs) :=
  (failsByFiles_writeDocument _ _).bind fun _ => .pure _

theorem failsByFiles_writeDiagrams (a : Artifacts) (format : Diagram.Format)
    (d : Diagram.Drawing) : FailsByFiles (a.writeDiagrams format d) := by
  unfold writeDiagrams
  refine .bind (.change _) fun _ => .bind (.change _) fun _ => ?_
  cases d.importGraph with
  | some text => exact .bind (.change _) fun _ => .pure _
  | none =>
    refine .bind .get fun t => ?_
    split
    · exact .bind (.change _) fun _ => .pure _
    · exact .pure _

theorem failsByFiles_save (a : Artifacts) (format : Diagram.Format) (x : Saved) :
    FailsByFiles (a.save format x) := by
  refine .bind (failsByFiles_writeGraph a _) fun _ => ?_
  refine .bind (failsByFiles_writeCycles a _) fun _ => ?_
  exact .bind (failsByFiles_writeDiagrams a format _) fun _ => .pure _

end Artifacts

namespace Pipeline

open Artifacts (Saved Saves places)
open FileTree (SameApart Grown PlainAt)
open Survey (Aggregation ReadsAlike Unread)

variable {p : Plan} {root : Path} {t t' u w : FileTree} {place drawn : Place}
variable {format : Diagram.Format} {aggregation : Aggregation}

/-! ### What a full run does -/

/-- What a full run leaves behind, given what the files add up to. -/
def Plan.saved (p : Plan) (aggregation : Aggregation) : Saved :=
  let cs := detectCycles aggregation.callGraph p.dedupe
  ⟨aggregation.document, cs,
    Diagram.draw p.format aggregation.callGraph (some aggregation.importGraph) cs⟩

theorem run_eq_bind (hstages : p.stages = .all) (root : Path) :
    run p root = surveyed p.survey root >>= fun aggregation =>
      p.artifacts.save p.format (p.saved aggregation) >>= fun written =>
        pure ⟨aggregation, some (detectCycles aggregation.callGraph p.dedupe), written⟩ := by
  unfold run graphStage Artifacts.save
  simp only [hstages, Stages.all, bind_assoc, pure_bind, if_true]
  rfl

theorem run_surveyed (t : FileTree) (o : Survey.Options) (root : Path) :
    (surveyed o root).run t = ((Survey.run t o root).1, t) := by
  rw [surveyed, (Does.get t).run_bind]
  cases (Survey.run t o root).1 <;> rfl

theorem does_run_of_save (hstages : p.stages = .all) {written : List Path}
    (hsurvey : (Survey.run t p.survey root).1 = .ok aggregation)
    (hsave : Does (p.artifacts.save p.format (p.saved aggregation)) t written u) :
    Does (run p root) t
      ⟨aggregation, some (detectCycles aggregation.callGraph p.dedupe), written⟩ u := by
  rw [run_eq_bind hstages]
  have hsurveyed : Does (surveyed p.survey root) t aggregation t := by
    rw [Does, run_surveyed, hsurvey]
  exact hsurveyed.bind (hsave.bind (.pure _ u))

theorem exists_save_of_run (hstages : p.stages = .all) {outcome : Outcome}
    (h : Does (run p root) t outcome u) :
    ∃ aggregation written, (Survey.run t p.survey root).1 = .ok aggregation ∧
      Does (p.artifacts.save p.format (p.saved aggregation)) t written u ∧
      outcome = ⟨aggregation, some (detectCycles aggregation.callGraph p.dedupe), written⟩ := by
  rw [run_eq_bind hstages] at h
  obtain ⟨aggregation, v, hsurveyed, h⟩ := h.exists_of_bind
  rw [Does, run_surveyed] at hsurveyed
  obtain ⟨hsurvey, rfl⟩ := Prod.mk.inj hsurveyed
  obtain ⟨written, v, hsave, hreturn⟩ := h.exists_of_bind
  obtain ⟨rfl, rfl⟩ := hreturn.eq_of_pure
  exact ⟨aggregation, written, hsurvey, hsave, rfl⟩

/-- A full run that fails for another reason than files fails in the survey, and has done nothing. -/
theorem eq_of_run_error (hstages : p.stages = .all) {e : Failure}
    (h : (run p root).run t = (.error e, u)) (hfiles : ∀ fault, e ≠ .io fault) : u = t := by
  have hsaves : ∀ aggregation : Aggregation, FailsByFiles
      (p.artifacts.save p.format (p.saved aggregation) >>= fun written =>
        (pure ⟨aggregation, some (detectCycles aggregation.callGraph p.dedupe), written⟩ :
          Action Outcome)) :=
    fun _ => (Artifacts.failsByFiles_save _ _ _).bind fun _ => .pure _
  rw [run_eq_bind hstages] at h
  have hsurvey := (FailsByFiles.fails_bind_iff hsaves hfiles).1 h
  rw [Fails, run_surveyed] at hsurvey
  exact (Prod.mk.inj hsurvey).2.symm

theorem run_unsupported {q : Place} {content : ByteArray}
    (hstages : p.stages = .all) (hresolve : t.resolve true root = .ok (q, some (.file content)))
    (hother : Language.isSource root = false) :
    (run p root).run t = (.error (.unsupported root), t) := by
  have hsurvey : (Survey.run t p.survey root).1 = .error (.unsupported root) := by
    rw [Survey.run, Survey.discover, hresolve]
    dsimp only
    rw [hother]
    rfl
  rw [run_eq_bind hstages, Action.run_bind, run_surveyed, hsurvey]

/-! ### Doing it again -/

/-- A survey looks at none of the artifacts. -/
theorem unread_places (format : Diagram.Format) (place drawn : Place) :
    Unread (places format place drawn) := by
  have hnames : ∀ name ∈ ["call_graph.json", "cycles.json", "call_graph" ++ "." ++ format.extension,
      "import_graph" ++ "." ++ format.extension], Path.IsName name ∧
        Language.isSource ⟨name⟩ = false ∧ name ∉ [".ignore", ".gitignore", "exclude"] := by
    cases format <;> decide
  intro q name hmem
  apply hnames
  simp only [places, Artifacts.documentPlaces, Artifacts.diagramPlaces, List.cons_append,
    List.nil_append, List.mem_cons, List.not_mem_nil, or_false, List.append_singleton_inj] at hmem
  simp only [List.mem_cons, List.not_mem_nil, or_false]
  rcases hmem with h | h | h | h <;> simp [h.2]

theorem does_run_of_saves (hstages : p.stages = .all) {x : Survey.Aggregation}
    (hsurvey : (Survey.run t p.survey root).1 = .ok x) {t₁ t₂ t₁' t₂' : FileTree}
    (hsaves : Saves p.artifacts p.format (p.saved x) place drawn t t₁ t₂ u)
    (halike : t.IsLinkless ∨ ReadsAlike p.survey root t w)
    (hsaves' : Saves p.artifacts p.format (p.saved x) place drawn w t₁' t₂' u)
    (htree : t.IsTree) (hgrown : Grown (places p.format place drawn) t w) :
    Does (run p root) w
      ⟨x, some (detectCycles x.callGraph p.dedupe), p.artifacts.written p.format (p.saved x)⟩ u := by
  have hunread := unread_places p.format place drawn
  have hreads : ReadsAlike p.survey root t w := by
    rcases halike with hlinkless | hreads
    · exact Survey.readsAlike_of_isLinkless htree hlinkless hgrown hsaves.plain_before
        hsaves'.plain_before hunread p.survey root
    · exact hreads
  have hsame := Survey.run_eq htree hgrown hsaves.plain_before hsaves'.plain_before hunread hreads
    hsurvey
  exact does_run_of_save hstages (hsame ▸ hsurvey) hsaves'.does_save

/-- A full run that fails for another reason than files has done nothing. One that succeeds leaves its
artifacts behind in two directories. If there were no links in the places of the artifacts, and none
elsewhere or only such that the survey reads the same through its paths afterwards, running again gives
the same report and leaves the same tree behind. Whatever files were in these places before, the report
and the tree would have been the same. -/
theorem run_again {p : Plan} {root : Path} {t u : FileTree} {r : Except Failure Outcome}
    (hstages : p.stages = .all) (htree : t.IsTree) (hrun : (run p root).run t = (r, u))
    (hfiles : ∀ fault, r ≠ .error (.io fault)) :
    (∀ e, r = .error e → u = t) ∧
    ∀ outcome, r = .ok outcome →
      (t.IsLinkless → ∃ place drawn, u.LeadsTo p.artifacts.directory place ∧
        u.LeadsTo p.artifacts.diagramsDirectory drawn) ∧
      ∀ place drawn, u.LeadsTo p.artifacts.directory place →
        u.LeadsTo p.artifacts.diagramsDirectory drawn →
        (∀ q ∈ places p.format place drawn, ∀ target, t.entry? q ≠ some (.link target)) →
        (t.IsLinkless ∨ ReadsAlike p.survey root t u → (run p root).run u = (r, u)) ∧
        ∀ t', SameApart (places p.format place drawn) t t' →
          PlainAt (places p.format place drawn) t' →
          t.IsLinkless ∨ ReadsAlike p.survey root t t' → (run p root).run t' = (r, u) := by
  constructor
  · rintro e rfl
    exact eq_of_run_error hstages hrun fun fault h => hfiles fault (h ▸ rfl)
  · rintro outcome rfl
    obtain ⟨x, written, hsurvey, hsave, rfl⟩ := exists_save_of_run hstages hrun
    obtain ⟨place, drawn, hplace, hdrawn, hsaves⟩ := Artifacts.exists_saves hsave
    refine ⟨fun hlinkless => ?_, fun place' drawn' hleads hleadsDiagrams hlink => ?_⟩
    · obtain ⟨t₁, t₂, hsaves⟩ := hsaves fun q _ => hlinkless q
      exact ⟨place, drawn, hsaves.leads_result⟩
    · -- a path leads to one place only
      obtain rfl := hplace place' hleads
      obtain rfl := hdrawn drawn' hleadsDiagrams
      obtain ⟨t₁, t₂, hsaves⟩ := hsaves hlink
      obtain rfl : written = p.artifacts.written p.format (p.saved x) :=
        Except.ok.inj (Prod.mk.inj (hsave.symm.trans hsaves.does_save)).1
      constructor
      · intro halike
        exact does_run_of_saves hstages hsurvey hsaves halike hsaves.again htree hsaves.grown
      · intro t' hsame hplain halike
        obtain ⟨t₁', t₂', hother⟩ := hsaves.other hsame hplain
        exact does_run_of_saves hstages hsurvey hsaves halike hother htree hsame.grown

/-! ### With artifacts in what is surveyed -/

theorem plainAt_places (hgraph : t.IsPlainAt (place ++ ["call_graph.json"]))
    (hcycles : t.IsPlainAt (place ++ ["cycles.json"]))
    (hcalls : t.IsPlainAt (drawn ++ ["call_graph" ++ "." ++ format.extension]))
    (himports : t.IsPlainAt (drawn ++ ["import_graph" ++ "." ++ format.extension])) :
    PlainAt (places format place drawn) t := by
  simp only [PlainAt, places, Artifacts.documentPlaces, Artifacts.diagramPlaces, List.cons_append,
    List.nil_append, List.forall_mem_cons]
  exact ⟨hgraph, hcycles, hcalls, himports, fun q hq => absurd hq List.not_mem_nil⟩

/-- A full run as it is carried out unless told otherwise. -/
def plainPlan : Plan := { artifacts := ⟨⟨"out"⟩⟩ }

theorem leads_out (hworking : t.working = []) (hout : t.entry? ["out"] = some .directory)
    (hdiagrams : t.entry? ["out", "diagrams"] = some .directory) :
    t.LeadsTo plainPlan.artifacts.directory ["out"] ∧
      t.LeadsTo plainPlan.artifacts.diagramsDirectory ["out", "diagrams"] := by
  have hempty := t.leadsTo_empty
  rw [hworking] at hempty
  have hleads : t.LeadsTo ⟨"out"⟩ ["out"] := hempty.join (by decide : Path.IsName "out") hout
  exact ⟨hleads, hleads.join (by decide) hdiagrams⟩

/-- A project with its output directory in it, where an earlier run has drawn a diagram of imports. -/
def nestedProject : FileTree :=
  ⟨.ofList [(["app.py"], .file "def run():\n    run()\n".toUTF8), (["notes.txt"], .file .empty),
    (["out"], .directory), (["out", "diagrams"], .directory),
    (["out", "diagrams", "import_graph.mmd"], .file "graph TD\n".toUTF8)], []⟩

theorem isTree_nestedProject : nestedProject.IsTree := by
  refine ⟨rfl, ?_, ?_⟩ <;> decide +kernel

theorem isLinkless_nestedProject : nestedProject.IsLinkless := by
  intro q target h
  have hne : q ≠ [] := by
    rintro rfl
    cases h
  rw [← FileTree.get?_entries hne, nestedProject, OrderedMap.get?_ofList,
    Option.map_eq_some_iff] at h
  obtain ⟨e, hfound, hlink⟩ := h
  have hmem := List.mem_of_find?_eq_some hfound
  simp only [List.mem_reverse, List.mem_cons, List.not_mem_nil, or_false] at hmem
  rcases hmem with rfl | rfl | rfl | rfl | rfl <;> cases hlink

theorem exists_survey_nestedProject :
    ∃ aggregation, (Survey.run nestedProject {} ⟨"."⟩).1 = .ok aggregation ∧
      aggregation.importGraph = ∅ := by
  have hleads : nestedProject.LeadsTo ⟨"."⟩ [] := ⟨FileTree.maxLinks, .stay rfl .done⟩
  have hjoin : (Path.mk ".").join "app.py" = ⟨"./app.py"⟩ := by decide
  have hread : nestedProject.readText ⟨"./app.py"⟩ = .ok "def run():\n    run()\n" := by
    rw [← hjoin]
    exact hleads.readText_join isName_source rfl
  have hfound : Survey.filesBelow nestedProject (Survey.depthBound nestedProject)
      (.start nestedProject {} ⟨"."⟩ []) ⟨"."⟩ [] = [⟨"./app.py"⟩] := by decide +kernel
  have hdiscover : Survey.discover nestedProject {} ⟨"."⟩ = .ok [⟨"./app.py"⟩] := by
    rw [Survey.discover, hleads.resolve_of_ne_empty (by decide)]
    dsimp only
    rw [hfound, List.mergeSort_singleton]
  have hgraphs : (Survey.analyzeFile nestedProject {} ⟨"./app.py"⟩).toOption.map
      (fun r => (r.callGraph, r.importGraph)) = some (.ofEdges [("app.run", "app.run")], ∅) := by
    rw [Survey.analyzeFile, hread]
    decide +kernel
  obtain ⟨r, hanalyze, hgraphs⟩ := Survey.exists_ok_of_toOption hgraphs
  refine ⟨_, survey_of_discover hdiscover hanalyze, ?_⟩
  simp only [Aggregation.add, (Prod.mk.inj hgraphs).2]
  rfl

/-- The old diagram is removed, and makes no difference. -/
theorem run_again_nested :
    let stale : Place := ["out", "diagrams", "import_graph.mmd"]
    ∃ outcome u, Does (run plainPlan ⟨"."⟩) nestedProject outcome u ∧
      Does (run plainPlan ⟨"."⟩) u outcome u ∧
      Does (run plainPlan ⟨"."⟩) (nestedProject.drop stale) outcome u ∧
      u.entry? stale = none := by
  intro stale
  obtain ⟨x, hsurvey, himports⟩ := exists_survey_nestedProject
  obtain ⟨hleads, hleadsDiagrams⟩ := leads_out (t := nestedProject) rfl rfl rfl
  have hplain : PlainAt (places plainPlan.format ["out"] ["out", "diagrams"]) nestedProject :=
    plainAt_places (.inl rfl) (.inl rfl) (.inl rfl) (.inr ⟨_, rfl⟩)
  have hsaves := Saves.of_leads (a := plainPlan.artifacts) (x := plainPlan.saved x) hleads
    hleadsDiagrams hplain
  have hrun := does_run_of_save rfl hsurvey hsaves.does_save
  obtain ⟨-, hok⟩ := run_again rfl isTree_nestedProject hrun (fun _ h => nomatch h)
  obtain ⟨-, hok⟩ := hok _ rfl
  obtain ⟨hleads', hleadsDiagrams'⟩ := hsaves.leads_result
  obtain ⟨hagain, hother⟩ := hok _ _ hleads' hleadsDiagrams' fun q _ => isLinkless_nestedProject q
  have hstale : stale ∈ places plainPlan.format ["out"] ["out", "diagrams"] := by decide
  have hdropped : PlainAt (places plainPlan.format ["out"] ["out", "diagrams"])
      (nestedProject.drop stale) := fun q hq => (hplain q hq).drop (by decide)
  refine ⟨_, _, hrun, hagain (.inl isLinkless_nestedProject),
    hother _ (.of_drop hstale) hdropped (.inl isLinkless_nestedProject), ?_⟩
  have hnone : (plainPlan.saved x).drawing.importGraph = none := by
    simp only [Plan.saved, himports]
    rfl
  rw [Saved.illustrated, hnone, Artifacts.replaced, FileTree.entry?_drop (by decide)]
  exact if_pos rfl

/-- A project in which the only source file is a link to where the document of the graphs goes. -/
def linkedProject : FileTree :=
  ⟨.ofList [(["out"], .directory), (["out", "call_graph.json"], .file "def f():\n    g()\n".toUTF8),
    (["out", "diagrams"], .directory), (["x.py"], .link "out/call_graph.json")], []⟩

section Linked
variable {u : FileTree} {source : String}

theorem resolve_linked (hkeeps : linkedProject.Keeps u) (hworking : u.working = [])
    (hentry : u.entry? ["out", "call_graph.json"] = some (.file source.toUTF8)) :
    u.resolve true ⟨"x.py"⟩ = .ok (["out", "call_graph.json"], some (.file source.toUTF8)) := by
  have hlink : u.entry? ([] ++ ["x.py"]) = some (.link "out/call_graph.json") :=
    hkeeps.link ["x.py"] _ rfl
  have hout : u.entry? ([] ++ ["out"]) = some .directory := hkeeps.directory ["out"] rfl
  have hstart : u.start ⟨"x.py"⟩ = [] := by
    rw [FileTree.start, hworking]
    rfl
  have hsegments : (Path.mk "x.py").segments = ["x.py"] := by decide
  have htarget : Path.segmentsOf "out/call_graph.json" = ["out", "call_graph.json"] := by decide
  have hrelative : FileTree.isRooted "out/call_graph.json" = false := by decide
  rw [FileTree.resolve_of_ne_empty (by decide), hstart, hsegments, FileTree.maxLinks,
    FileTree.resolveFrom_follow (by decide) (by decide) true hlink (by decide) rfl,
    htarget, List.append_nil, hrelative, if_neg Bool.false_ne_true,
    FileTree.resolveFrom_down (by decide) (by decide) true hout,
    FileTree.resolveFrom_file (by decide) (by decide) true hentry]
  rfl

theorem exists_survey_linked {calls imports : NameGraph}
    (hgraphs : ∀ t : FileTree, t.readText ⟨"x.py"⟩ = .ok source →
      (Survey.analyzeFile t {} ⟨"x.py"⟩).toOption.map (fun r => (r.callGraph, r.importGraph)) =
        some (calls, imports))
    (hkeeps : linkedProject.Keeps u) (hworking : u.working = [])
    (hentry : u.entry? ["out", "call_graph.json"] = some (.file source.toUTF8)) :
    ∃ aggregation, (Survey.run u {} ⟨"x.py"⟩).1 = .ok aggregation ∧
      aggregation.callGraph = Digraph.merge ∅ calls ∧
      aggregation.importGraph = Digraph.merge ∅ imports := by
  have hresolve := resolve_linked hkeeps hworking hentry
  have hread : u.readText ⟨"x.py"⟩ = .ok source := by
    rw [FileTree.readText, FileTree.readBytes, hresolve]
    simp only [FileTree.fromUTF8?_toUTF8]
  have hdiscover : Survey.discover u {} ⟨"x.py"⟩ = .ok [⟨"x.py"⟩] := by
    rw [Survey.discover, hresolve]
    rfl
  obtain ⟨r, hanalyze, hr⟩ := Survey.exists_ok_of_toOption (hgraphs u hread)
  obtain ⟨rfl, rfl⟩ := Prod.mk.inj hr
  exact ⟨_, survey_of_discover hdiscover hanalyze, rfl, rfl⟩

end Linked

theorem graphs_linkedProject (hread : t.readText ⟨"x.py"⟩ = .ok "def f():\n    g()\n") :
    (Survey.analyzeFile t {} ⟨"x.py"⟩).toOption.map (fun r => (r.callGraph, r.importGraph)) =
      some (.ofEdges [("x.f", "x.g")], ∅) := by
  rw [Survey.analyzeFile, hread]
  decide +kernel

/-- The document of the graphs is no source file in which there are functions. -/
theorem graphs_document (hread : t.readText ⟨"x.py"⟩ = .ok (GraphDocument.ofGraphs
      (Digraph.merge ∅ (.ofEdges [("x.f", "x.g")])) (Digraph.merge ∅ ∅)).write) :
    (Survey.analyzeFile t {} ⟨"x.py"⟩).toOption.map (fun r => (r.callGraph, r.importGraph)) =
      some (∅, ∅) := by
  rw [Survey.analyzeFile, hread]
  decide +kernel

theorem isTree_linkedProject : linkedProject.IsTree := by
  refine ⟨rfl, ?_, ?_⟩ <;> decide +kernel

theorem plainAt_linkedProject :
    PlainAt (places plainPlan.format ["out"] ["out", "diagrams"]) linkedProject :=
  plainAt_places (.inr ⟨_, rfl⟩) (.inl rfl) (.inl rfl) (.inl rfl)

/-- The document that a run writes through the link is what the next one reads. -/
theorem runs_differ_linkedProject :
    ∃ outcome u outcome' u', u.LeadsTo plainPlan.artifacts.directory ["out"] ∧
      u.LeadsTo plainPlan.artifacts.diagramsDirectory ["out", "diagrams"] ∧
      Does (run plainPlan ⟨"x.py"⟩) linkedProject outcome u ∧
      Does (run plainPlan ⟨"x.py"⟩) u outcome' u' ∧
      outcome.aggregation.callGraph ≠ outcome'.aggregation.callGraph := by
  obtain ⟨hleads, hleadsDiagrams⟩ := leads_out (t := linkedProject) rfl rfl rfl
  obtain ⟨x, hsurvey, hcalls, himports⟩ := exists_survey_linked (u := linkedProject)
    (fun _ => graphs_linkedProject) ⟨fun _ h => h, fun _ _ h => h⟩ rfl rfl
  have hsaves := Saves.of_leads (a := plainPlan.artifacts) (x := plainPlan.saved x) hleads
    hleadsDiagrams plainAt_linkedProject
  obtain ⟨hleads', hleadsDiagrams'⟩ := hsaves.leads_result
  have hgraph := hsaves.entry?_result List.mem_cons_self
    (Saved.entry?_documented hsaves.plainAt_documents (plainPlan.saved x)).1
  have hdocument : (plainPlan.saved x).graph =
      .ofGraphs (Digraph.merge ∅ (.ofEdges [("x.f", "x.g")])) (Digraph.merge ∅ ∅) := by
    rw [← hcalls, ← himports]
    rfl
  rw [hdocument] at hgraph
  obtain ⟨y, hsurvey', hcalls', -⟩ := exists_survey_linked (fun _ => graphs_document)
    hsaves.keeps.1 hsaves.grown.working hgraph
  have hagain := Saves.of_leads (a := plainPlan.artifacts) (x := plainPlan.saved y) hleads'
    hleadsDiagrams' hsaves.plain_result
  refine ⟨_, _, _, _, hleads', hleadsDiagrams',
    does_run_of_save rfl hsurvey hsaves.does_save,
    does_run_of_save rfl hsurvey' hagain.does_save, ?_⟩
  dsimp only
  rw [hcalls, hcalls']
  decide +kernel

/-- Through a link a survey reads an artifact that it has written itself, and a run that finds
nothing to survey leaves the artifacts of an earlier one. -/
theorem run_again_depends :
    (linkedProject.IsTree ∧
      PlainAt (places plainPlan.format ["out"] ["out", "diagrams"]) linkedProject ∧
      ∃ outcome u outcome' u', u.LeadsTo plainPlan.artifacts.directory ["out"] ∧
        u.LeadsTo plainPlan.artifacts.diagramsDirectory ["out", "diagrams"] ∧
        Does (run plainPlan ⟨"x.py"⟩) linkedProject outcome u ∧
        Does (run plainPlan ⟨"x.py"⟩) u outcome' u' ∧
        outcome.aggregation.callGraph ≠ outcome'.aggregation.callGraph) ∧
    let stale : Place := ["out", "diagrams", "import_graph.mmd"]
    let cleaned := nestedProject.drop stale
    (run plainPlan ⟨"notes.txt"⟩).run nestedProject =
        (.error (.unsupported ⟨"notes.txt"⟩), nestedProject) ∧
      (run plainPlan ⟨"notes.txt"⟩).run cleaned = (.error (.unsupported ⟨"notes.txt"⟩), cleaned) ∧
      SameApart [stale] nestedProject cleaned ∧ nestedProject.IsLinkless ∧
      (∃ content, nestedProject.entry? stale = some (.file content)) ∧
      cleaned.entry? stale = none := by
  refine ⟨⟨isTree_linkedProject, plainAt_linkedProject, runs_differ_linkedProject⟩, ?_⟩
  intro stale cleaned
  have hname : Path.IsName "notes.txt" := by decide
  have hresolve : ∀ t : FileTree, t.entry? (t.working ++ ["notes.txt"]) = some (.file .empty) →
      t.resolve true ⟨"notes.txt"⟩ = .ok (t.working ++ ["notes.txt"], some (.file .empty)) := by
    intro t hentry
    rw [← hentry]
    exact t.leadsTo_empty.resolve_join hname (by simp [hentry]) true
  have hfile : cleaned.entry? (cleaned.working ++ ["notes.txt"]) = some (.file .empty) :=
    (FileTree.entry?_drop (by decide) _ _).trans rfl
  refine ⟨run_unsupported rfl (hresolve _ rfl) (by decide),
    run_unsupported rfl (hresolve _ hfile) (by decide), .of_drop List.mem_cons_self,
    isLinkless_nestedProject, ⟨_, rfl⟩, ?_⟩
  exact (FileTree.entry?_drop (by decide) _ _).trans (if_pos rfl)

end Pipeline

end CallAtlas
