import CallAtlas.Proofs.Pipeline.Rerun
import CallAtlas.Proofs.Survey.ProgressStream
import CallAtlas.Proofs.Survey.SourceFiles
/-!
# The messages of a full run

Telling how far a run has come changes nothing about the run. `Tells y x t said` says that `y` does to
a tree what `x` does and sends the given messages on the way, or the first ones of them where it
fails.
-/

namespace CallAtlas.Pipeline

open Survey (Aggregation Progress Report Watched IsStream)

variable {α β : Type} {t u : FileTree}

/-- The one does to the tree what the other does, and sends the messages. Where it fails, it has sent
the first ones of them. -/
structure Tells (y : Telling α) (x : Action α) (t : FileTree) (said : List Progress) : Prop where
  does : ∀ {a u}, Does x t a u → ∀ sent, y.run (t, sent) = (.ok a, u, sent ++ said)
  fails : ∀ {e u}, Fails x t e u → ∀ sent, ∃ before, before <+: said ∧
    y.run (t, sent) = (.error e, u, sent ++ before)

namespace Tells

variable {y : Telling α} {x : Action α} {said later : List Progress}

theorem pure (a : α) (t : FileTree) : Tells (Pure.pure a) (Pure.pure a) t [] where
  does h sent := by
    obtain ⟨rfl, rfl⟩ := h.eq_of_pure
    rw [List.append_nil]
    rfl
  fails h := absurd h not_fails_pure

theorem silently (x : Action α) (t : FileTree) : Tells (silently x) x t [] where
  does h sent := by
    rw [List.append_nil]
    exact congrArg (fun r : Except Failure α × FileTree => (r.1, r.2, sent)) h
  fails h sent := by
    refine ⟨[], List.prefix_rfl, ?_⟩
    rw [List.append_nil]
    exact congrArg (fun r : Except Failure α × FileTree => (r.1, r.2, sent)) h

theorem bind {g : α → Telling β} {f : α → Action β} (hy : Tells y x t said)
    (hg : ∀ {a u}, Does x t a u → Tells (g a) (f a) u later) :
    Tells (y >>= g) (x >>= f) t (said ++ later) where
  does h sent := by
    obtain ⟨a, u, hx, hf⟩ := h.exists_of_bind
    rw [Action.run_bind, hy.does hx sent, ← List.append_assoc]
    exact (hg hx).does hf _
  fails h sent := by
    rcases fails_bind_iff.1 h with hx | ⟨a, u, hx, hf⟩
    · obtain ⟨before, hbefore, hrun⟩ := hy.fails hx sent
      refine ⟨before, hbefore.trans (List.prefix_append said later), ?_⟩
      rw [Action.run_bind, hrun]
    · obtain ⟨before, hbefore, hrun⟩ := (hg hx).fails hf (sent ++ said)
      refine ⟨said ++ before, (List.prefix_append_right_inj said).2 hbefore, ?_⟩
      rw [Action.run_bind, hy.does hx sent, ← List.append_assoc]
      exact hrun

theorem tell_bind {g : Unit → Telling α} (messages : List Progress)
    (h : Tells (g ()) x t later) : Tells (tell messages >>= g) x t (messages ++ later) where
  does hx sent := by
    rw [← List.append_assoc]
    exact h.does hx (sent ++ messages)
  fails hx sent := by
    obtain ⟨before, hbefore, hrun⟩ := h.fails hx (sent ++ messages)
    refine ⟨messages ++ before, (List.prefix_append_right_inj messages).2 hbefore, ?_⟩
    rw [← List.append_assoc]
    exact hrun

theorem stage {f : α → Action β} {g : α → Telling β} (first last : Progress)
    (h : ∀ {a u}, Does x t a u → Tells (g a) (f a) u later) :
    Tells (tell [first] >>= fun _ => Pipeline.silently x >>= fun a => tell [last] >>= fun _ => g a)
      (x >>= f) t ([first, last] ++ later) :=
  .tell_bind [first] ((silently x t).bind fun hx => .tell_bind [last] (h hx))

end Tells

/-- Whatever the action returns where it succeeds has the property. -/
def Returns (x : Action α) (P : α → Prop) : Prop := ∀ t a u, Does x t a u → P a

theorem Returns.bind {x : Action α} {f : α → Action β} {P : β → Prop}
    (hf : ∀ a, Returns (f a) P) : Returns (x >>= f) P := by
  intro t b u h
  obtain ⟨a, v, -, h⟩ := h.exists_of_bind
  exact hf a v b u h

theorem Returns.pure {a : α} {P : α → Prop} (h : P a) : Returns (Pure.pure a) P := by
  intro t b u hdoes
  rwa [hdoes.eq_of_pure.1]

/-! ### Full runs -/

/-- The messages behind a survey: a beginning and an end for every stage that is carried out. -/
def laterMessages (stages : Stages) (nodes : Nat) : List Progress :=
  (if stages.cycles then [.started .cycles nodes, .finished .cycles] else []) ++
    if stages.diagrams then [.started .export 0, .finished .export] else []

/-- What a full run does behind the survey and the writing of the graphs. -/
theorem exists_rest (p : Plan) (root : Path) (arrive : List Path → List Report) :
    ∃ (f : Aggregation × Path → Action Outcome) (g : Aggregation × Path → Telling Outcome),
      run p root = graphStage p.survey p.artifacts root >>= f ∧
      runTelling p root arrive = graphStageTelling p.survey p.artifacts root arrive >>= g ∧
      (∀ r t, Tells (g r) (f r) t (laterMessages p.stages r.1.callGraph.keyCount)) ∧
      ∀ r, Returns (f r) (·.aggregation = r.1) := by
  refine ⟨_, _, rfl, rfl, ?_, ?_⟩
  · rintro ⟨aggregation, graph⟩ t
    simp only [pure_bind, laterMessages]
    cases p.stages.cycles with
    | true =>
      refine .stage _ _ fun _ => ?_
      cases p.stages.diagrams with
      | true => exact .stage _ _ fun _ => .pure _ _
      | false => exact .pure _ _
    | false =>
      cases p.stages.diagrams with
      | true => exact .stage _ _ fun _ => .pure _ _
      | false => exact .pure _ _
  · rintro ⟨aggregation, graph⟩
    simp only [pure_bind]
    split
    · refine .bind fun _ => ?_
      split
      · exact .bind fun _ => .pure rfl
      · exact .pure rfl
    · split
      · exact .bind fun _ => .pure rfl
      · exact .pure rfl

section Arrivals
variable {p : Plan} {root : Path} {files : List Path} {arrive : List Path → List Report}

theorem run_surveyTelling (o : Survey.Options) (root : Path)
    (arrive : List Path → List Report) (t : FileTree) (sent : List Progress) :
    (surveyTelling o root arrive).run (t, sent) =
      match Survey.discover t o root with
      | .error e => (.error e, t, sent)
      | .ok files => (.ok (.ofReports (arrive files)), t,
          sent ++ Progress.ofReports files.length (arrive files)) := by
  have hget (g : FileTree × List Progress → Telling Aggregation) :
      (MonadState.get >>= g).run (t, sent) = (g (t, sent)).run (t, sent) := rfl
  unfold surveyTelling
  rw [hget]
  cases Survey.discover t o root <;> rfl

theorem run_runTelling_of_error {e : Failure} (h : Survey.discover t p.survey root = .error e)
    (sent : List Progress) : (runTelling p root arrive).run (t, sent) = (.error e, t, sent) := by
  obtain ⟨f, g, -, htelling, -⟩ := exists_rest p root arrive
  rw [htelling, graphStageTelling, Action.run_bind, Action.run_bind, run_surveyTelling, h]

/-- What a full run does and tells behind the survey, given the order in which the reports arrive. -/
theorem exists_tells_runTelling (arrive : List Path → List Report)
    (h : Survey.discover t p.survey root = .ok files) :
    let a := Aggregation.ofReports (arrive files)
    ∃ y x, Tells y x t (laterMessages p.stages a.callGraph.keyCount) ∧
      Returns x (·.aggregation = a) ∧
      (∀ sent, (runTelling p root arrive).run (t, sent) =
        y.run (t, sent ++ Progress.ofReports files.length (arrive files))) ∧
      ((Survey.run t p.survey root).1 = .ok a → (run p root).run t = x.run t) := by
  intro a
  obtain ⟨f, g, hrun, htelling, htells, hreturns⟩ := exists_rest p root arrive
  refine ⟨silently (p.artifacts.writeGraph a.document) >>= fun written => g (a, written),
    p.artifacts.writeGraph a.document >>= fun written => f (a, written),
    (Tells.silently _ t).bind fun {written u} _ => htells (a, written) u,
    .bind fun written => hreturns (a, written), ?_, ?_⟩
  · intro sent
    rw [htelling, graphStageTelling, bind_assoc, Action.run_bind, run_surveyTelling, h]
    simp only [bind_assoc, pure_bind]
    rfl
  · intro hsurvey
    have hsurveyed : Does (surveyed p.survey root) t a t := by
      rw [Does, run_surveyed, hsurvey]
    rw [hrun, graphStage, bind_assoc, hsurveyed.run_bind]
    simp only [bind_assoc, pure_bind]

/-- The order in which the reports arrive shows in the messages about the survey only. Behind them are
those about later stages, or the first ones of them where a stage fails. -/
theorem run_runTelling (arrive : List Path → List Report)
    (h : Survey.discover t p.survey root = .ok files) :
    let a := Aggregation.ofReports (arrive files)
    let surveying := Progress.ofReports files.length (arrive files)
    let later := laterMessages p.stages a.callGraph.keyCount
    let result := (runTelling p root arrive).run (t, [])
    ((Survey.run t p.survey root).1 = .ok a → (run p root).run t = (result.1, result.2.1)) ∧
    (∀ outcome, result.1 = .ok outcome →
      outcome.aggregation = a ∧ result.2.2 = surveying ++ later) ∧
    ∀ e, result.1 = .error e → ∃ before, before <+: later ∧ result.2.2 = surveying ++ before := by
  intro a surveying later
  obtain ⟨y, x, htells, hreturns, htelling, hrun⟩ := exists_tells_runTelling arrive h
  rw [htelling [], List.nil_append]
  cases hx : x.run t with
  | mk r u =>
    cases r with
    | ok outcome =>
      rw [htells.does hx surveying]
      refine ⟨fun hsurvey => (hrun hsurvey).trans hx, ?_, fun _ he => nomatch he⟩
      rintro _ ⟨rfl⟩
      exact ⟨hreturns t outcome u hx, rfl⟩
    | error e =>
      obtain ⟨before, hbefore, hy⟩ := htells.fails hx surveying
      rw [hy]
      refine ⟨fun hsurvey => (hrun hsurvey).trans hx, fun _ hok => (nomatch hok), ?_⟩
      rintro _ ⟨rfl⟩
      exact ⟨before, hbefore, rfl⟩

end Arrivals

/-- However many workers share out the files of a project and however they are interleaved, the work
comes to an end, and the messages about it are in order. A full run in which the reports arrive in
that order does what any full run does; the messages about later stages follow those about the survey.
If there is nothing to survey, nothing is sent. -/
theorem progress_stream_well_formed (p : Plan) (t : FileTree) (root : Path) :
    (∀ e, Survey.discover t p.survey root = .error e →
      Survey.run t p.survey root = (.error e, []) ∧
      ∀ arrive, (runTelling p root arrive).run (t, []) = (.error e, t, [])) ∧
    ∀ files, Survey.discover t p.survey root = .ok files →
      let report := Report.ofFile t p.survey
      (WellFounded fun w v => Watched.Step report v w) ∧
      ∀ workers,
        (∀ w, Survey.Work.Steps report (.start files workers) w →
          ∃ messages, Watched.Steps report (.start files workers) ⟨w, messages, false⟩) ∧
        ∀ w, Watched.Steps report (.start files workers) w →
          (w.ended = false → ∃ x, Watched.Step report w x) ∧
          (w.ended = true →
            let a := Aggregation.ofReports w.work.received
            IsStream files a.failures w.messages ∧
            (t.IsTree → (Survey.run t p.survey root).1 = .ok a) ∧
            (workers ≤ 1 → Survey.run t p.survey root = (.ok a, w.messages)) ∧
            ∀ arrive, arrive files = w.work.received →
              let result := (runTelling p root arrive).run (t, [])
              let later := laterMessages p.stages a.callGraph.keyCount
              (t.IsTree → (run p root).run t = (result.1, result.2.1)) ∧
              (∀ outcome, result.1 = .ok outcome →
                outcome.aggregation = a ∧ result.2.2 = w.messages ++ later) ∧
              ∀ e, result.1 = .error e →
                ∃ before, before <+: later ∧ result.2.2 = w.messages ++ before) := by
  constructor
  · intro e h
    exact ⟨by simp [Survey.run, h], fun arrive => run_runTelling_of_error h []⟩
  intro files h report
  refine ⟨Watched.wellFounded_step _, fun workers => ⟨?_, fun w hsteps => ?_⟩⟩
  · exact fun w h => Watched.exists_steps_of_work h _
  refine ⟨Watched.exists_step _, ?_⟩
  intro hended a
  have hmessages := hsteps.messages_eq hended
  have hclosed := (hsteps.sound (Watched.sound_start files workers)).closed hended
  have hsurvey : t.IsTree → (Survey.run t p.survey root).1 = .ok a := by
    intro htree
    rw [Survey.run_of_discover h, ← Survey.ofReports_received
      (Survey.distinct_of_discover htree h) hsteps.work_steps hclosed]
  refine ⟨?_, hsurvey, ?_, ?_⟩
  · rw [hmessages]
    exact Survey.isStream_ofReports (hsteps.received_perm hended)
  · intro hsingle
    have hreceived : w.work.received = Survey.reports t p.survey files :=
      hsteps.work_steps.received_eq hclosed hsingle
    simp only [Survey.run, h]
    rw [hmessages, ← hreceived]
  · intro arrive harrive
    obtain ⟨hrun, hdone, hfailed⟩ := run_runTelling arrive h
    rw [harrive] at hrun hdone hfailed
    rw [hmessages]
    exact ⟨fun htree => hrun (hsurvey htree), hdone, hfailed⟩

/-- A project with a file that does not parse, and an empty directory for artifacts. -/
def faultyProject : FileTree :=
  ⟨.ofList [(["bad.py"], .file "def broken(:\n".toUTF8), (["out"], .directory),
    (["util.py"], .file "def run():\n    run()\n".toUTF8)], []⟩

theorem isTree_faultyProject : faultyProject.IsTree := by
  refine ⟨rfl, ?_, ?_⟩ <;> decide +kernel

theorem leadsTo_faultyProject : faultyProject.LeadsTo ⟨"."⟩ [] :=
  ⟨FileTree.maxLinks, .stay rfl .done⟩

theorem discover_faultyProject :
    Survey.discover faultyProject {} ⟨"."⟩ = .ok [⟨"./bad.py"⟩, ⟨"./util.py"⟩] := by
  have hfound : Survey.filesBelow faultyProject (Survey.depthBound faultyProject)
      (.start faultyProject {} ⟨"."⟩ []) ⟨"."⟩ [] = [⟨"./bad.py"⟩, ⟨"./util.py"⟩] := by
    decide +kernel
  rw [Survey.discover, leadsTo_faultyProject.resolve_of_ne_empty (by decide)]
  dsimp only
  rw [hfound, List.mergeSort_of_pairwise (by decide)]

theorem discover_gone :
    Survey.discover faultyProject {} ⟨"gone"⟩ = .error (.pathNotFound ⟨"gone"⟩) := by
  have hresolve : faultyProject.resolve true ((Path.mk "").join "gone") = .ok (["gone"], none) :=
    faultyProject.leadsTo_empty.resolve_join (by decide) (fun _ h => by cases h) true
  have hjoined : (Path.mk "").join "gone" = ⟨"gone"⟩ := by decide
  rw [Survey.discover, ← hjoined, hresolve]

theorem analyzeFile_faultyProject :
    Survey.analyzeFile faultyProject {} ⟨"./bad.py"⟩ = .error (.invalidSource 1) ∧
      ∃ r, Survey.analyzeFile faultyProject {} ⟨"./util.py"⟩ = .ok r ∧
        r.callGraph = .ofEdges [("util.run", "util.run")] := by
  have hbad : faultyProject.readText ((Path.mk ".").join "bad.py") = .ok "def broken(:\n" :=
    leadsTo_faultyProject.readText_join (by decide) rfl
  have hutil : faultyProject.readText ((Path.mk ".").join "util.py") =
      .ok "def run():\n    run()\n" :=
    leadsTo_faultyProject.readText_join (by decide) rfl
  have hjoined : (Path.mk ".").join "bad.py" = ⟨"./bad.py"⟩ ∧
      (Path.mk ".").join "util.py" = ⟨"./util.py"⟩ := by decide
  rw [hjoined.1] at hbad
  rw [hjoined.2] at hutil
  constructor
  · have hfails : (Survey.analyzeFile faultyProject {} ⟨"./bad.py"⟩).map (fun _ => ()) =
        .error (.invalidSource 1) := by
      rw [Survey.analyzeFile, hbad]
      decide +kernel
    cases hanalyze : Survey.analyzeFile faultyProject {} ⟨"./bad.py"⟩ with
    | ok r =>
      rw [hanalyze] at hfails
      cases hfails
    | error e =>
      rw [hanalyze] at hfails
      exact congrArg _ (Except.error.inj hfails)
  · apply Survey.exists_ok_of_toOption
    rw [Survey.analyzeFile, hutil]
    decide +kernel

theorem aggregation_faultyProject :
    let a := Aggregation.ofReports
      ([⟨"./util.py"⟩, ⟨"./bad.py"⟩].map (Report.ofFile faultyProject {}))
    a.failures = [(⟨"./bad.py"⟩, .invalidSource 1)] ∧ a.callGraph.keyCount = 1 := by
  intro a
  obtain ⟨hbad, r, hutil, hcalls⟩ := analyzeFile_faultyProject
  have hcontributions : Aggregation.contributions
      ([⟨"./util.py"⟩, ⟨"./bad.py"⟩].map (Report.ofFile faultyProject {})) =
        [(⟨"./util.py"⟩, r)] := by
    apply List.perm_singleton.1
    apply ((Survey.inOrder_perm _).filterMap _).trans
    simp [Report.ofFile, Report.contribution?, hutil, hbad]
  constructor
  · apply List.perm_singleton.1
    apply (Survey.failures_perm _).trans
    simp [Report.ofFile, Report.failure?, hutil, hbad]
  · have hgraph : a.callGraph = Digraph.merge ∅ (.ofEdges [("util.run", "util.run")]) := by
      simp only [a, Aggregation.ofReports_eq, hcontributions, List.foldl_cons, List.foldl_nil,
        hcalls]
    rw [hgraph]
    decide +kernel

theorem holds_faultyProject : faultyProject.Holds ⟨"out"⟩ ["out"] [] := by
  have hleads : faultyProject.LeadsTo ((Path.mk "").join "out") ([] ++ ["out"]) :=
    faultyProject.leadsTo_empty.join (by decide) rfl
  refine ⟨hleads, fun q hq => ?_⟩
  show (OrderedMap.ofList _).get? _ = none
  rw [OrderedMap.get?_ofList]
  simp [hq.symm]

/-- The second worker overtakes the first one, whose file does not parse. A run from where nothing is
sends nothing. -/
theorem progress_stream_well_formed_faulty :
    let report := Survey.Report.ofFile faultyProject {}
    ∃ w outcome u, Watched.Steps report (.start [⟨"./bad.py"⟩, ⟨"./util.py"⟩] 2) w ∧
      w.ended = true ∧
      w.messages = [.started .parsing 2, .advanced .parsing 1 (some "./util.py"),
        .failed "./bad.py: Parse error: invalid syntax near line 1",
        .advanced .parsing 2 (some "./bad.py"), .finished .parsing] ∧
      outcome.aggregation.failures = [(⟨"./bad.py"⟩, .invalidSource 1)] ∧
      (runTelling plainPlan ⟨"."⟩ fun _ => w.work.received).run (faultyProject, []) =
        (.ok outcome, u, w.messages ++
          [.started .cycles 1, .finished .cycles, .started .export 0, .finished .export]) ∧
      (runTelling plainPlan ⟨"gone"⟩ fun _ => w.work.received).run (faultyProject, []) =
        (.error (.pathNotFound ⟨"gone"⟩), faultyProject, []) := by
  intro report
  obtain ⟨hbad, r, hutil, -⟩ := analyzeFile_faultyProject
  obtain ⟨hfailures, hnodes⟩ := aggregation_faultyProject
  obtain ⟨-, hgone⟩ := (progress_stream_well_formed plainPlan faultyProject ⟨"gone"⟩).1 _
    discover_gone
  obtain ⟨hwatched, hall⟩ := ((progress_stream_well_formed plainPlan faultyProject ⟨"."⟩).2 _
    discover_faultyProject).2 2
  obtain ⟨messages, hsteps⟩ := hwatched _ (Survey.Work.steps_overtaken report _ _)
  have hend := hsteps.tail (.finish (by simp [Survey.Work.IsClosed]))
  have hmessages : messages ++ [.finished .parsing] = [.started .parsing 2,
      .advanced .parsing 1 (some "./util.py"),
      .failed "./bad.py: Parse error: invalid syntax near line 1",
      .advanced .parsing 2 (some "./bad.py"), .finished .parsing] := by
    have hreports : messages ++ [.finished .parsing] =
        Progress.ofReports 2 [report ⟨"./util.py"⟩, report ⟨"./bad.py"⟩] := hend.messages_eq rfl
    rw [hreports]
    simp only [report, Report.ofFile, hbad, hutil]
    rfl
  obtain ⟨-, hsurvey, -, hruns⟩ := (hall _ hend).2 rfl
  obtain ⟨hrun, hdone, -⟩ := hruns
    (fun _ => [⟨"./util.py"⟩, ⟨"./bad.py"⟩].map report) rfl
  obtain ⟨written, u, hdoes, -⟩ := does_run (p := plainPlan) holds_faultyProject rfl
    (hsurvey isTree_faultyProject)
  have hresult := (hrun isTree_faultyProject).symm.trans hdoes
  obtain ⟨hok, htree⟩ := Prod.mk.inj hresult
  obtain ⟨hsame, hsent⟩ := hdone _ hok
  refine ⟨_, _, u, hend, rfl, hmessages, hsame ▸ hfailures, ?_, hgone _⟩
  have hlater := congrArg (laterMessages plainPlan.stages) hnodes
  exact Prod.ext hok (Prod.ext htree (hsent.trans (congrArg _ hlater)))

end CallAtlas.Pipeline
