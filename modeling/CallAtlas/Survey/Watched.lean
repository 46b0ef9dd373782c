import CallAtlas.Survey.Workers
/-!
# Watched work

While workers share out the files of a survey, messages tell how far they have come. All messages are
sent from where the reports are received: one before the first report, those about a report when it
is received, and one when no more can come.
-/

namespace CallAtlas.Survey

/-- The state of the work on files, with what has been said about it. -/
structure Watched where
  work : Work
  messages : List Progress
  /-- Whether nothing more is said. -/
  ended : Bool

namespace Watched

/-- The work on files by so many workers, about which its size has been said. -/
def start (files : List Path) (workers : Nat) : Watched :=
  ⟨.start files workers, [.started .parsing files.length], false⟩

/-- One event of the work that is watched, given the report on each file. -/
inductive Step (report : Path → Report) : Watched → Watched → Prop where
  /-- A worker goes on by itself, about which nothing is said. -/
  | work {v w : Work} {messages : List Progress} (step : Work.Step report v w)
      (hreceived : w.received = v.received) :
      Step report ⟨v, messages, false⟩ ⟨w, messages, false⟩
  /-- The first report is received. -/
  | receive {r : Report} {waiting : List Path} {workers : List Worker}
      {sent received : List Report} {messages : List Progress} :
      Step report ⟨⟨waiting, workers, r :: sent, received⟩, messages, false⟩
        ⟨⟨waiting, workers, sent, received ++ [r]⟩,
          messages ++ Progress.ofReport r (received.length + 1), false⟩
  /-- No further report can be received. -/
  | finish {w : Work} {messages : List Progress} (hclosed : w.IsClosed) :
      Step report ⟨w, messages, false⟩ ⟨w, messages ++ [.finished .parsing], true⟩

/-- Some events of the work one after another. -/
inductive Steps (report : Path → Report) : Watched → Watched → Prop where
  | refl (w : Watched) : Steps report w w
  | tail {v w x : Watched} (before : Steps report v w) (last : Step report w x) : Steps report v x

end Watched

end CallAtlas.Survey
