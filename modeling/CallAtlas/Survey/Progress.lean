import CallAtlas.Survey.Report
/-!
# Progress

The messages by which a run tells how far it has come.
-/

namespace CallAtlas.Survey

inductive Phase where
  | parsing
  | cycles
  | export
deriving DecidableEq, Repr

/-- A message about the progress of a run. -/
inductive Progress where
  /-- A phase with so many items begins. -/
  | started (phase : Phase) (total : Nat)
  /-- So many items of a phase are done, the last one being a file. -/
  | advanced (phase : Phase) (current : Nat) (file : Option String)
  | finished (phase : Phase)
  /-- Something went wrong. -/
  | failed (text : String)
deriving DecidableEq, Repr

namespace Progress

/-- The messages about a report that is the `current`-th to arrive. -/
def ofReport (r : Report) (current : Nat) : List Progress :=
  ((r.failure?.map fun (path, e) => .failed (path.text ++ ": " ++ e.message)).toList) ++
    [.advanced .parsing current (some r.path.text)]

/-- The messages about the reports on `total` files, in the order in which they arrive. -/
def ofReports (total : Nat) (reports : List Report) : List Progress :=
  [.started .parsing total] ++
    (reports.zipIdx.flatMap fun (r, i) => ofReport r (i + 1)) ++ [.finished .parsing]

end Progress

end CallAtlas.Survey
