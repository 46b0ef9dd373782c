import CallAtlas.Python.Outline
import CallAtlas.Survey.Discovery
/-!
# Reports on files

The analysis of one file gives its contribution to the graphs, or the reason why it has none.
-/

namespace CallAtlas.Survey

def analyzeFile (t : FileTree) (o : Options) (path : Path) : Except Failure WalkResult :=
  if !Language.isSource path then .error (.unsupported path)
  else
    match t.readText path with
    | .error fault => .error (.io fault)
    | .ok source =>
      match Python.outline source with
      | .error e => .error (.invalidSource e.line)
      | .ok outline =>
        match outline.walk o.maxDepth path.moduleName with
        | .error e => .error (.tooDeep e.limit)
        | .ok result => .ok result

/-- What a worker reports on a file. -/
structure Report where
  path : Path
  /-- Its contribution, or the reason why it has none. -/
  outcome : Except Failure WalkResult

namespace Report

def ofFile (t : FileTree) (o : Options) (path : Path) : Report := ⟨path, analyzeFile t o path⟩

def contribution? (r : Report) : Option (Path × WalkResult) :=
  match r.outcome with
  | .ok result => some (r.path, result)
  | .error _ => none

def failure? (r : Report) : Option (Path × Failure) :=
  match r.outcome with
  | .ok _ => none
  | .error e => some (r.path, e)

end Report

end CallAtlas.Survey
