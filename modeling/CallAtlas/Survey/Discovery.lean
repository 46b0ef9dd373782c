import CallAtlas.Failure
import CallAtlas.Files.FileTree
import CallAtlas.Ignore.Directory
import CallAtlas.Language
import CallAtlas.Scope.Walk
/-!
# Discovery

Which files a survey is about: the source files below a directory, except what exclude patterns or,
if asked for, ignore files reject. A rejected directory is not entered, and links are not followed.
-/

namespace CallAtlas.Survey

open Ignore (Rules Surroundings)

/-- How a survey is carried out. -/
structure Options where
  /-- The number of workers; at least one works in any case. -/
  workers : Nat := 1
  /-- Whether ignore files count and hidden entries are skipped. -/
  respectIgnore : Bool := false
  exclude : List String := []
  maxDepth : Nat := defaultMaxDepth
deriving DecidableEq, Repr, Inhabited

/-- The number of workers that share the work. -/
def Options.workerCount (o : Options) : Nat := max o.workers 1

/-- What rejects entries at some place. -/
structure Filter where
  /-- The exclude patterns. -/
  excluded : Rules
  /-- The rules of the ignore files around, if they count. -/
  ignored : Option Surroundings

namespace Filter

/-- The filter of a search that starts in a directory at a place. -/
def start (t : FileTree) (o : Options) (root : Path) (place : Place) : Filter where
  excluded := .ofLines root.text o.exclude
  ignored := if o.respectIgnore then some (.above t root place) else none

/-- The filter inside a directory. -/
def enter (f : Filter) (t : FileTree) (directory : Path) : Filter :=
  { f with ignored := f.ignored.map fun s => s.enter t directory }

def rejects (f : Filter) (path : Path) (name : String) (isDirectory : Bool) : Bool :=
  (match f.ignored with
    | some s => s.skips path name isDirectory
    | none => false) ||
    f.excluded.excludes path.text isDirectory

end Filter

/-- The source files below a directory at a place, down to `depth` levels, in the order of the
places. -/
def filesBelow (t : FileTree) : (depth : Nat) → Filter → Path → Place → List Path
  | 0, _, _, _ => []
  | depth + 1, f, directory, place =>
    let f := f.enter t directory
    (t.children place).flatMap fun (name, e) =>
      let path := directory.join name
      if f.rejects path name e.isDirectory then []
      else
        match e with
        | .file _ => if Language.isSource path then [path] else []
        | .directory => filesBelow t depth f path (place ++ [name])
        | .link _ => []

/-- A bound on the nesting of directories: each lies at a place of its own. -/
def depthBound (t : FileTree) : Nat := t.entries.size + 1

/-- The files that a survey from a path is about, in the order of paths. A file is one of them
alone, if it is a source file. -/
def discover (t : FileTree) (o : Options) (root : Path) : Except Failure (List Path) :=
  match t.resolve true root with
  | .ok (_, some (.file _)) =>
    if Language.isSource root then .ok [root] else .error (.unsupported root)
  | .ok (place, some _) =>
    .ok ((filesBelow t (depthBound t) (.start t o root place) root place).mergeSort fun a b =>
      (compare a b).isLE)
  | .ok (_, none) => .error (.pathNotFound root)
  | .error _ => .error (.pathNotFound root)

end CallAtlas.Survey
