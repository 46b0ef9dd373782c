import CallAtlas.Document
import CallAtlas.Files.Fault
import CallAtlas.Path
/-!
# Failures

Why a stage of the analysis fails, with the wording that reports show.
-/

namespace CallAtlas

/-- The stage that writes a document. -/
inductive Producer where
  | graph
  | cycles
deriving DecidableEq, Repr

def Producer.name : Producer → String
  | graph => "graph"
  | cycles => "cycles"

/-- Why a document is malformed. -/
inductive DocumentFlaw where
  /-- It is no JSON of the right form. -/
  | json (failure : Json.Failure)
  | cycle (flaw : CycleList.Flaw)
deriving DecidableEq, Repr

def DocumentFlaw.message : DocumentFlaw → String
  | json e => e.message
  | cycle f => f.message

/-- Why a stage fails. -/
inductive Failure where
  /-- Nothing is where the analysis should start. -/
  | pathNotFound (path : Path)
  | io (fault : Files.Fault)
  /-- A source text has a fault on a line. -/
  | invalidSource (line : Nat)
  /-- A source text is nested deeper than allowed. -/
  | tooDeep (limit : Nat)
  | unsupported (path : Path)
  | missingArtifact (path : Path) (producer : Producer)
  | malformedDocument (path : Path) (flaw : DocumentFlaw)
deriving DecidableEq, Repr

namespace Failure

def message : Failure → String
  | pathNotFound p => "Path not found: " ++ p.text
  | io e => "IO error: " ++ e.message
  | invalidSource line => "Parse error: invalid syntax near line " ++ toString line
  | tooDeep limit => "Syntax tree nesting exceeds the depth limit of " ++ toString limit
  | unsupported p => "Adapter error: no adapter handles " ++ p.text
  | missingArtifact p producer =>
    "Missing artifact " ++ p.text ++ " (run the \x60" ++ producer.name ++ "\x60 stage first)"
  | malformedDocument p flaw => "Malformed document " ++ p.text ++ ": " ++ flaw.message

/-- The wording of a failure with its cause, where it has one of its own. -/
def messageWithCause (e : Failure) : String :=
  match e with
  | io fault => e.message ++ ": " ++ fault.message
  | _ => e.message

end Failure

end CallAtlas
