/-!
# Faults of file operations

Why an operation on files fails, with the wording of the operating system.
-/

namespace CallAtlas.Files

inductive Fault where
  /-- Nothing has the name. -/
  | notFound
  /-- Something has the name already. -/
  | exists
  /-- A file stands where a directory is needed. -/
  | notDirectory
  /-- A directory stands where a file is needed. -/
  | isDirectory
  /-- Links lead to links without end. -/
  | tooManyLinks
  /-- The bytes of a file are no text. -/
  | noText
  /-- No directory is left in which another one could be created. -/
  | noWholeTree
deriving DecidableEq, Repr, Inhabited

namespace Fault

def message : Fault → String
  | notFound => "No such file or directory (os error 2)"
  | .exists => "File exists (os error 17)"
  | notDirectory => "Not a directory (os error 20)"
  | isDirectory => "Is a directory (os error 21)"
  | tooManyLinks => "Too many levels of symbolic links (os error 40)"
  | noText => "stream did not contain valid UTF-8"
  | noWholeTree => "failed to create whole tree"

end Fault

end CallAtlas.Files
