import CallAtlas.Survey.Workers
import CallAtlas.Proofs.Survey.ReportOrder
import Mathlib.Order.WellFounded
/-!
# Interleavings of workers

In whatever order the workers take files and send reports, and whenever reports are received, the
work comes to an end with one report on every file, and the reports add up to the same as those of a
single worker. What carries the argument is the list of the reports that have been sent or will be:
the files in it only change places.
-/

namespace CallAtlas.Survey

namespace Work

variable {report : Path → Report} {v w x : Work}

/-- The files that workers have taken. -/
def taken (w : Work) : List Path := w.workers.filterMap Worker.file?

/-- The reports that are received by the end: those received, those on their way, and those on the
files that are left. -/
def prospect (report : Path → Report) (w : Work) : List Report :=
  w.received ++ (w.sent ++ ((w.taken ++ w.waiting).map report))

theorem prospect_start (files : List Path) (workers : Nat) :
    prospect report (start files workers) = files.map report := by
  simp [prospect, taken, start, Worker.file?]

theorem filterMap_file? (before after : List Worker) (worker : Worker) :
    (before ++ worker :: after).filterMap Worker.file? =
      before.filterMap Worker.file? ++ (worker.file?.toList ++ after.filterMap Worker.file?) := by
  rw [List.filterMap_append, List.filterMap_cons]
  cases worker.file? <;> rfl

theorem Step.perm_prospect (h : Step report v w) :
    (w.prospect report).Perm (v.prospect report) := by
  cases h with
  | take =>
    simp only [prospect, taken, filterMap_file?, Worker.file?, Option.toList_some,
      Option.toList_none, List.append_assoc, List.cons_append, List.nil_append, List.map_append,
      List.map_cons]
    apply List.Perm.append_left
    apply List.Perm.append_left
    apply List.Perm.append_left
    exact List.perm_middle.symm
  | send =>
    simp only [prospect, taken, filterMap_file?, Worker.file?, Option.toList_some,
      Option.toList_none, List.append_assoc, List.cons_append, List.nil_append, List.map_append,
      List.map_cons]
    apply List.Perm.append_left
    apply List.Perm.append_left
    exact List.perm_middle.symm
  | finish =>
    simp only [prospect, taken, filterMap_file?, Worker.file?]
    exact .refl _
  | receive => simp [prospect, taken]

theorem Steps.perm_prospect (h : Steps report v w) :
    (w.prospect report).Perm (v.prospect report) := by
  induction h with
  | refl => exact .refl _
  | tail _ last ih => exact last.perm_prospect.trans ih

/-- A worker ends only when no file is left. -/
def EndsLate (w : Work) : Prop := .ended ∈ w.workers → w.waiting = []

theorem Step.length_workers (h : Step report v w) : w.workers.length = v.workers.length := by
  cases h <;> simp

theorem Step.endsLate (h : Step report v w) (hv : v.EndsLate) : w.EndsLate := by
  intro hw
  cases h with
  | take => exact absurd (hv (by simpa using hw)) (List.cons_ne_nil _ _)
  | send => exact hv (by simpa using hw)
  | finish => rfl
  | receive => exact hv hw

theorem Steps.length_workers (h : Steps report v w) : w.workers.length = v.workers.length := by
  induction h with
  | refl => rfl
  | tail _ last ih => exact last.length_workers.trans ih

theorem Steps.endsLate (h : Steps report v w) (hv : v.EndsLate) : w.EndsLate := by
  induction h with
  | refl => exact hv
  | tail _ last ih => exact last.endsLate ih

theorem length_workers_start (files : List Path) (workers : Nat) :
    (start files workers).workers.length = max (min workers files.length) 1 :=
  List.length_replicate

theorem endsLate_start (files : List Path) (workers : Nat) : (start files workers).EndsLate := by
  intro h
  exact absurd (List.eq_of_mem_replicate h) (by simp)

theorem prospect_of_isClosed (hw : w.IsClosed) (hlate : w.EndsLate) (hne : w.workers ≠ []) :
    w.prospect report = w.received := by
  obtain ⟨hended, hsent⟩ := hw
  obtain ⟨worker, hworker⟩ := List.exists_mem_of_ne_nil _ hne
  have hwaiting : w.waiting = [] := hlate (hended worker hworker ▸ hworker)
  have htaken : w.taken = [] := by
    apply List.filterMap_eq_nil_iff.2
    intro worker hworker
    rw [hended worker hworker]
    rfl
  simp [prospect, hsent, hwaiting, htaken]

/-- Every file has been reported on exactly once. -/
theorem Steps.received_perm {files : List Path} {workers : Nat}
    (h : Steps report (start files workers) w) (hw : w.IsClosed) :
    w.received.Perm (files.map report) := by
  have hne : w.workers ≠ [] := by
    apply List.ne_nil_of_length_pos
    rw [h.length_workers, length_workers_start]
    omega
  rw [← prospect_of_isClosed hw (h.endsLate (endsLate_start files workers)) hne,
    ← prospect_start files workers]
  exact h.perm_prospect

/-- There is a next step as long as the work is not done. -/
theorem isClosed_or_exists_step (report : Path → Report) (w : Work) :
    w.IsClosed ∨ ∃ v, Step report w v := by
  obtain ⟨waiting, workers, sent, received⟩ := w
  by_cases hended : ∀ worker ∈ workers, worker = .ended
  · cases sent with
    | nil => exact .inl ⟨hended, rfl⟩
    | cons r rest => exact .inr ⟨_, .receive⟩
  · push Not at hended
    obtain ⟨worker, hworker, hne⟩ := hended
    obtain ⟨before, after, rfl⟩ := List.append_of_mem hworker
    cases worker with
    | ended => exact absurd rfl hne
    | busy path => exact .inr ⟨_, .send⟩
    | idle =>
      cases waiting with
      | nil => exact .inr ⟨_, .finish⟩
      | cons path rest => exact .inr ⟨_, .take⟩

/-- The number of steps that are left: each file is still taken, reported on and received, as far as
this has not happened, and each worker still ends. -/
def stepsLeft (w : Work) : Nat :=
  3 * w.waiting.length + 3 * w.taken.length + w.sent.length + w.workers.count .idle

theorem Step.stepsLeft_lt (h : Step report v w) : w.stepsLeft < v.stepsLeft := by
  cases h with
  | take =>
    simp only [stepsLeft, taken, filterMap_file?, Worker.file?, Option.toList, List.length_append,
      List.length_cons, List.length_nil, List.count_append, List.count_cons]
    simp
    omega
  | send =>
    simp only [stepsLeft, taken, filterMap_file?, Worker.file?, Option.toList, List.length_append,
      List.length_cons, List.length_nil, List.count_append, List.count_cons]
    simp
    omega
  | finish =>
    simp only [stepsLeft, taken, filterMap_file?, Worker.file?, List.count_append, List.count_cons]
    simp
  | receive => simp [stepsLeft, taken]

theorem wellFounded_step (report : Path → Report) :
    WellFounded fun w v => Step report v w :=
  Subrelation.wf Step.stepsLeft_lt (InvImage.wf stepsLeft Nat.lt_wfRel.wf)

theorem Steps.trans (hvw : Steps report v w) (hwx : Steps report w x) : Steps report v x := by
  induction hwx with
  | refl => exact hvw
  | tail _ last ih => exact .tail ih last

theorem exists_steps_isClosed (report : Path → Report) (v : Work) :
    ∃ w, Steps report v w ∧ w.IsClosed := by
  induction v using (wellFounded_step report).induction with
  | _ v ih =>
    rcases isClosed_or_exists_step report v with hv | ⟨w, hw⟩
    · exact ⟨v, .refl v, hv⟩
    · obtain ⟨x, hx, hclosed⟩ := ih w hw
      exact ⟨x, (Steps.tail (.refl v) hw).trans hx, hclosed⟩

/-- Of two workers, the second one may overtake the first one. -/
theorem steps_overtaken (report : Path → Report) (p q : Path) :
    Steps report (start [p, q] 2) ⟨[], [.ended, .ended], [], [report q, report p]⟩ :=
  .tail (.tail (.tail (.tail (.tail (.tail (.tail (.tail (.refl _)
    (@Step.take report p [q] [] [.idle] [] []))
    (@Step.take report q [] [.busy p] [] [] []))
    (@Step.send report q [] [.busy p] [] [] []))
    (@Step.finish report [.busy p] [] [report q] []))
    (@Step.receive report (report q) [] [.busy p, .ended] [] []))
    (@Step.send report p [] [] [.ended] [] [report q]))
    (@Step.receive report (report p) [] [.idle, .ended] [] [report q]))
    (@Step.finish report [] [.ended] [] [report q, report p])

end Work

section

variable {t : FileTree} {o : Options} {files : List Path}

theorem ofReports_received {workers : Nat} {w : Work}
    (distinct : files.Pairwise fun p q => p.components ≠ q.components)
    (h : Work.Steps (.ofFile t o) (.start files workers) w) (hw : w.IsClosed) :
    Aggregation.ofReports w.received = Aggregation.ofReports (reports t o files) := by
  have hdistinct : DistinctPaths (reports t o files) := List.pairwise_map.2 distinct
  exact (Aggregation.ofReports_eq_of_perm hdistinct (h.received_perm hw).symm).symm

theorem run_of_discover {root : Path} (h : discover t o root = .ok files) :
    (run t o root).1 = .ok (.ofReports (reports t o files)) := by
  simp [run, h]

end

/-- However the workers are interleaved, the work never gets stuck and never goes on forever. When it
is done, every file has been reported on exactly once, and the reports add up to what those of any
run of one worker add up to, and to what the survey of a project gives whose files these are. -/
theorem survey_independent_of_interleaving (t : FileTree) (o : Options) (files : List Path)
    (distinct : files.Pairwise fun p q => p.components ≠ q.components) (workers : Nat) :
    (WellFounded fun w v => Work.Step (.ofFile t o) v w) ∧
    (∃ v, Work.Steps (.ofFile t o) (.start files 1) v ∧ v.IsClosed) ∧
    ∀ w, Work.Steps (.ofFile t o) (.start files workers) w →
      (¬w.IsClosed → ∃ x, Work.Step (.ofFile t o) w x) ∧
      (w.IsClosed →
        w.received.Perm (files.map (.ofFile t o)) ∧
        (∀ v, Work.Steps (.ofFile t o) (.start files 1) v → v.IsClosed →
          Aggregation.ofReports w.received = Aggregation.ofReports v.received) ∧
        ∀ root, discover t o root = .ok files →
          (run t o root).1 = .ok (.ofReports w.received)) := by
  refine ⟨Work.wellFounded_step _, Work.exists_steps_isClosed _ _, ?_⟩
  intro w hw
  constructor
  · intro hopen
    exact (Work.isClosed_or_exists_step _ w).resolve_left hopen
  · intro hclosed
    have hreceived := ofReports_received distinct hw hclosed
    refine ⟨hw.received_perm hclosed, ?_, ?_⟩
    · intro v hv hvclosed
      exact hreceived.trans (ofReports_received distinct hv hvclosed).symm
    · intro root hroot
      rw [run_of_discover hroot, hreceived]

/-- Two directories with a file of the same name. -/
def sharedFileName : FileTree :=
  ⟨.ofList [(["a"], .directory), (["a", "util.py"], .file "def run():\n    load()\n".toUTF8),
    (["b"], .directory), (["b", "util.py"], .file "def run():\n    store()\n".toUTF8)], []⟩

/-- The second worker overtakes the first one. -/
theorem survey_independent_of_interleaving_overtaken :
    let report := Report.ofFile sharedFileName {}
    let a : Path := ⟨"a/util.py"⟩
    let b : Path := ⟨"b/util.py"⟩
    let closed : Work := ⟨[], [.ended, .ended], [], [report b, report a]⟩
    a.components ≠ b.components ∧ Work.Steps report (.start [a, b] 2) closed ∧ closed.IsClosed ∧
      Aggregation.ofReports [report b, report a] = Aggregation.ofReports [report a, report b] := by
  intro report a b closed
  have hne : a.components ≠ b.components := by decide
  have hsteps : Work.Steps report (.start [a, b] 2) closed := Work.steps_overtaken report a b
  have hsingle : Work.Steps report (.start [a, b] 1)
      ⟨[], [.ended], [], [report a, report b]⟩ :=
    .tail (.tail (.tail (.tail (.tail (.tail (.tail (.refl _)
      (@Work.Step.take report a [b] [] [] [] []))
      (@Work.Step.send report a [b] [] [] [] []))
      (@Work.Step.take report b [] [] [] [report a] []))
      (@Work.Step.send report b [] [] [] [report a] []))
      (@Work.Step.finish report [] [] [report a, report b] []))
      (@Work.Step.receive report (report a) [] [.ended] [report b] []))
      (@Work.Step.receive report (report b) [] [.ended] [] [report a])
  have hclosed : closed.IsClosed := by simp [Work.IsClosed, closed]
  have hresult := survey_independent_of_interleaving sharedFileName {} [a, b] (by simpa using hne) 2
  refine ⟨hne, hsteps, hclosed, ?_⟩
  exact ((hresult.2.2 closed hsteps).2 hclosed).2.1 _ hsingle (by simp [Work.IsClosed])

end CallAtlas.Survey
