import CallAtlas.Proofs.Survey.Interleaving
import CallAtlas.Proofs.Survey.Isolation
import CallAtlas.Survey.Watched
/-!
# The messages of a survey

However workers are interleaved, the messages about their work are one block for each file, between
one that the work begins and one that it is over. The blocks are numbered in the order in which the
reports are received, which is any order of the files; the failures that blocks tell of are those of
the survey. What every event keeps is that the messages are those about the reports received so far.
-/

namespace CallAtlas.Survey

variable {t : FileTree} {o : Options} {files : List Path} {failures : List (Path × Failure)}

/-- Messages about files that are done one after another, numbered on from `k`. Each file is named,
and before that, if it has failed, the reason is told. -/
inductive Blocks (failures : List (Path × Failure)) :
    (k : Nat) → List Path → List Progress → Prop where
  | nil {k : Nat} : Blocks failures k [] []
  | analyzed {k : Nat} {p : Path} {files : List Path} {messages : List Progress}
      (hdone : ∀ e, (p, e) ∉ failures) (rest : Blocks failures (k + 1) files messages) :
      Blocks failures k (p :: files) (.advanced .parsing k (some p.text) :: messages)
  | failed {k : Nat} {p : Path} {e : Failure} {files : List Path} {messages : List Progress}
      (hfailed : (p, e) ∈ failures) (rest : Blocks failures (k + 1) files messages) :
      Blocks failures k (p :: files)
        (.failed (p.text ++ ": " ++ e.message) :: .advanced .parsing k (some p.text) :: messages)

/-- The messages about the analysis of files, of which some have failed: a block for every file, in
some order, between the beginning and the end. -/
def IsStream (files : List Path) (failures : List (Path × Failure)) (messages : List Progress) :
    Prop :=
  ∃ order blocks, order.Perm files ∧ Blocks failures 1 order blocks ∧
    messages = .started .parsing files.length :: (blocks ++ [.finished .parsing])

/-! ### Messages about reports -/

theorem mem_failures_ofReports_iff {rs : List Report} {f : Path × Failure} :
    f ∈ (Aggregation.ofReports rs).failures ↔ ∃ r ∈ rs, r.failure? = some f := by
  rw [Aggregation.ofReports_eq, ((inOrder_perm rs).filterMap _).mem_iff,
    List.mem_filterMap]

theorem blocks_of_reports {rs : List Report} (k : Nat)
    (h : ∀ r ∈ rs, ∀ e, (r.path, e) ∈ failures ↔ r.outcome = .error e) :
    Blocks failures (k + 1) (rs.map (·.path))
      ((rs.zipIdx k).flatMap fun (r, i) => Progress.ofReport r (i + 1)) := by
  induction rs generalizing k with
  | nil => exact .nil
  | cons r rs ih =>
    have hr := h r List.mem_cons_self
    have hrest := ih (k + 1) fun s hs => h s (List.mem_cons_of_mem r hs)
    rw [List.zipIdx_cons, List.flatMap_cons]
    obtain ⟨path, outcome⟩ := r
    cases outcome with
    | ok result => exact .analyzed (fun e he => nomatch (hr e).1 he) hrest
    | error e => exact .failed ((hr e).2 rfl) hrest

/-- In whatever order the reports on some files come, the messages about them are in order. -/
theorem isStream_ofReports {rs : List Report} (h : rs.Perm (files.map (.ofFile t o))) :
    IsStream files (Aggregation.ofReports rs).failures (Progress.ofReports files.length rs) := by
  have hof : ∀ r ∈ rs, r = .ofFile t o r.path := by
    intro r hr
    obtain ⟨p, -, rfl⟩ := List.mem_map.1 (h.mem_iff.1 hr)
    rfl
  have hfailures : ∀ r ∈ rs, ∀ e,
      (r.path, e) ∈ (Aggregation.ofReports rs).failures ↔ r.outcome = .error e := by
    intro r hr e
    rw [mem_failures_ofReports_iff]
    constructor
    · rintro ⟨s, hs, hfailure⟩
      rw [hof s hs, failure?_ofFile_eq_some] at hfailure
      obtain ⟨e', he, heq⟩ := hfailure
      obtain ⟨hpath, rfl⟩ := Prod.mk.inj heq
      rw [hof r hr, hpath]
      exact he
    · intro he
      exact ⟨r, hr, by rw [Report.failure?, he]⟩
  refine ⟨rs.map (·.path), _, ?_, blocks_of_reports 0 hfailures, ?_⟩
  · have hpaths := h.map (·.path)
    rwa [List.map_map, List.map_id''] at hpaths
    exact fun _ => rfl
  · simp [Progress.ofReports]

/-! ### Events -/

namespace Watched

variable {report : Path → Report} {v w : Watched}

/-- The messages are those about what has happened. -/
structure Sound (files : List Path) (w : Watched) : Prop where
  messages : w.messages = [.started .parsing files.length] ++
    (w.work.received.zipIdx.flatMap fun (r, i) => Progress.ofReport r (i + 1)) ++
      if w.ended then [.finished .parsing] else []
  closed : w.ended = true → w.work.IsClosed

theorem sound_start (files : List Path) (workers : Nat) : (start files workers).Sound files :=
  ⟨rfl, fun h => nomatch h⟩

theorem Step.sound (h : Step report v w) (hv : v.Sound files) : w.Sound files := by
  cases h with
  | work step hreceived =>
    refine ⟨?_, fun h => nomatch h⟩
    rw [hreceived]
    exact hv.messages
  | @receive r waiting workers sent received messages =>
    refine ⟨?_, fun h => nomatch h⟩
    have hmessages : messages = _ := hv.messages
    simp [hmessages, List.zipIdx_append]
  | @finish w messages hclosed =>
    refine ⟨?_, fun _ => hclosed⟩
    have hmessages : messages = _ := hv.messages
    simp [hmessages]

theorem Steps.sound (h : Steps report v w) (hv : v.Sound files) : w.Sound files := by
  induction h with
  | refl => exact hv
  | tail _ last ih => exact last.sound ih

/-- Watching changes nothing about the work. -/
theorem Step.work_steps (h : Step report v w) {x : Work} (hx : Work.Steps report x v.work) :
    Work.Steps report x w.work := by
  cases h with
  | work step _ => exact .tail hx step
  | receive => exact .tail hx .receive
  | finish => exact hx

theorem Steps.work_steps (h : Steps report v w) : Work.Steps report v.work w.work := by
  induction h with
  | refl => exact .refl _
  | tail _ last ih => exact last.work_steps ih

/-- Watching does not hold the work up either. -/
theorem exists_steps_of_work {x y : Work} (h : Work.Steps report x y) (messages : List Progress) :
    ∃ later, Steps report ⟨x, messages, false⟩ ⟨y, later, false⟩ := by
  induction h with
  | refl => exact ⟨messages, .refl _⟩
  | tail _ last ih =>
    obtain ⟨later, hbefore⟩ := ih
    cases last with
    | take => exact ⟨later, .tail hbefore (.work .take rfl)⟩
    | send => exact ⟨later, .tail hbefore (.work .send rfl)⟩
    | finish => exact ⟨later, .tail hbefore (.work .finish rfl)⟩
    | receive => exact ⟨_, .tail hbefore .receive⟩

/-- There is a next event as long as something is to be said. -/
theorem exists_step (report : Path → Report) {w : Watched} (hw : w.ended = false) :
    ∃ x, Step report w x := by
  obtain ⟨work, messages, ended⟩ := w
  obtain rfl : ended = false := hw
  rcases Work.isClosed_or_exists_step report work with hclosed | ⟨x, hx⟩
  · exact ⟨_, .finish hclosed⟩
  · cases hx with
    | take => exact ⟨_, .work .take rfl⟩
    | send => exact ⟨_, .work .send rfl⟩
    | finish => exact ⟨_, .work .finish rfl⟩
    | receive => exact ⟨_, .receive⟩

/-- The number of events that are left. -/
def stepsLeft (w : Watched) : Nat := w.work.stepsLeft + if w.ended then 0 else 1

theorem Step.stepsLeft_lt (h : Step report v w) : w.stepsLeft < v.stepsLeft := by
  cases h with
  | work step _ => exact Nat.add_lt_add_right step.stepsLeft_lt 1
  | receive => exact Nat.add_lt_add_right (@Work.Step.receive report _ _ _ _ _).stepsLeft_lt 1
  | finish => exact Nat.lt_succ_self _

theorem wellFounded_step (report : Path → Report) :
    WellFounded fun w v => Step report v w :=
  Subrelation.wf Step.stepsLeft_lt (InvImage.wf stepsLeft Nat.lt_wfRel.wf)

/-- When all is said, the messages are those about the reports in the order in which they have been
received. -/
theorem Steps.messages_eq {workers : Nat} (h : Steps report (start files workers) w)
    (hended : w.ended = true) :
    w.messages = Progress.ofReports files.length w.work.received := by
  rw [(h.sound (sound_start files workers)).messages, if_pos hended, Progress.ofReports]

theorem Steps.received_perm {workers : Nat} (h : Steps report (start files workers) w)
    (hended : w.ended = true) : w.work.received.Perm (files.map report) :=
  h.work_steps.received_perm ((h.sound (sound_start files workers)).closed hended)

end Watched

namespace Work

variable {report : Path → Report} {v w : Work}

/-! ### A single worker -/

/-- A single worker keeps the order of the files. -/
theorem Step.prospect_eq (h : Step report v w) (hsingle : v.workers.length = 1) :
    w.prospect report = v.prospect report := by
  have hnil : ∀ {before after : List Worker} {worker : Worker},
      (before ++ worker :: after).length = 1 → before = [] ∧ after = [] := by
    intro before after worker hlength
    rw [List.length_append, List.length_cons] at hlength
    exact ⟨List.eq_nil_of_length_eq_zero (by omega), List.eq_nil_of_length_eq_zero (by omega)⟩
  cases h with
  | take =>
    obtain ⟨rfl, rfl⟩ := hnil hsingle
    simp [prospect, taken, Worker.file?]
  | send =>
    obtain ⟨rfl, rfl⟩ := hnil hsingle
    simp [prospect, taken, Worker.file?]
  | finish =>
    obtain ⟨rfl, rfl⟩ := hnil hsingle
    rfl
  | receive => simp [prospect, taken]

theorem Steps.prospect_eq (h : Steps report v w) (hsingle : v.workers.length = 1) :
    w.prospect report = v.prospect report := by
  induction h with
  | refl => rfl
  | tail before last ih =>
    exact (last.prospect_eq (before.length_workers.trans hsingle)).trans ih

/-- A single worker reports on the files in their order. -/
theorem Steps.received_eq {workers : Nat} (h : Steps report (start files workers) w)
    (hw : w.IsClosed) (hsingle : workers ≤ 1) : w.received = files.map report := by
  have hstart : (start files workers).workers.length = 1 := by
    rw [length_workers_start]
    omega
  have hne : w.workers ≠ [] := by
    apply List.ne_nil_of_length_pos
    rw [h.length_workers, hstart]
    omega
  rw [← prospect_of_isClosed hw (h.endsLate (endsLate_start files workers)) hne,
    h.prospect_eq hstart, prospect_start]

end Work

end CallAtlas.Survey
