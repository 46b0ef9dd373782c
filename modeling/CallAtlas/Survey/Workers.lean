import CallAtlas.Survey.Aggregation
import CallAtlas.Survey.Progress
/-!
# Workers

The files of a survey are shared out among workers. A worker takes the first file that is left,
analyzes it, and sends its report; when no file is left it ends. Reports are received in the order in
which they are sent, until every worker has ended and every report has been received. `Step` lists
everything that can happen next. One worker gives the reports in the order of the files.
-/

namespace CallAtlas.Survey

/-- What a worker is doing. -/
inductive Worker where
  /-- It looks for a file. -/
  | idle
  /-- It analyzes a file. -/
  | busy (path : Path)
  /-- It has found that no file is left. -/
  | ended
deriving DecidableEq, Repr, Inhabited

/-- The file that a worker has taken. -/
def Worker.file? : Worker → Option Path
  | busy path => some path
  | _ => none

/-- The state of the work on files. -/
structure Work where
  /-- The files that nobody has taken. -/
  waiting : List Path
  workers : List Worker
  sent : List Report
  received : List Report

namespace Work

/-- The work on files by so many workers, of which no more are needed than there are files. -/
def start (files : List Path) (workers : Nat) : Work :=
  ⟨files, List.replicate (max (min workers files.length) 1) .idle, [], []⟩

/-- One event of the work, given the report on each file. -/
inductive Step (report : Path → Report) : Work → Work → Prop where
  /-- A worker without a file takes the first one. -/
  | take {path : Path} {rest : List Path} {before after : List Worker}
      {sent received : List Report} :
      Step report ⟨path :: rest, before ++ .idle :: after, sent, received⟩
        ⟨rest, before ++ .busy path :: after, sent, received⟩
  /-- A worker reports on its file. -/
  | send {path : Path} {waiting : List Path} {before after : List Worker}
      {sent received : List Report} :
      Step report ⟨waiting, before ++ .busy path :: after, sent, received⟩
        ⟨waiting, before ++ .idle :: after, sent ++ [report path], received⟩
  /-- A worker without a file ends, since none is left. -/
  | finish {before after : List Worker} {sent received : List Report} :
      Step report ⟨[], before ++ .idle :: after, sent, received⟩
        ⟨[], before ++ .ended :: after, sent, received⟩
  /-- The first report is received. -/
  | receive {r : Report} {waiting : List Path} {workers : List Worker}
      {sent received : List Report} :
      Step report ⟨waiting, workers, r :: sent, received⟩ ⟨waiting, workers, sent, received ++ [r]⟩

/-- Some events of the work one after another. -/
inductive Steps (report : Path → Report) : Work → Work → Prop where
  | refl (w : Work) : Steps report w w
  | tail {v w x : Work} (before : Steps report v w) (last : Step report w x) : Steps report v x

/-- Whether no further report can be received: every worker has ended, and nothing is on its way. -/
def IsClosed (w : Work) : Prop := (∀ worker ∈ w.workers, worker = .ended) ∧ w.sent = []

end Work

/-- The reports on files in the order of one worker. -/
def reports (t : FileTree) (o : Options) (files : List Path) : List Report :=
  files.map (Report.ofFile t o)

/-- Surveys a project: what its files add up to, and the messages about it. -/
def run (t : FileTree) (o : Options) (root : Path) :
    Except Failure Aggregation × List Progress :=
  match discover t o root with
  | .error e => (.error e, [])
  | .ok files =>
    let rs := reports t o files
    (.ok (.ofReports rs), Progress.ofReports files.length rs)

end CallAtlas.Survey
