import CallAtlas.Files.FileTree
import CallAtlas.Ignore.Rules
/-!
# Ignore files

Directories may hold files with ignore rules for what is below them: `.ignore`, `.gitignore` and
`.git/info/exclude`. Among the directories around an entry the innermost one that has something to
say about it counts; what the files of the first kind say counts before the second kind, and that
before the third.
-/

namespace CallAtlas.Ignore

/-- The bytes of a text up to its line ends. -/
def byteLines (bytes : List UInt8) : List (List UInt8) :=
  let (line, before) := bytes.foldl (fun (line, before) b =>
    if b == 10 then (([] : List UInt8), line.reverse :: before) else (b :: line, before)) ([], [])
  (if line.isEmpty then before else line.reverse :: before).reverse

/-- The lines of a text up to the first one that is no text, without the mark of encoding that the
first one may begin with. -/
def textLines (content : ByteArray) : List String :=
  let lines := (byteLines content.toList).map fun line => String.fromUTF8? ⟨line.toArray⟩
  let lines := (lines.takeWhile Option.isSome).filterMap id
  match lines with
  | [] => []
  | first :: rest => String.ofList (first.toList.dropWhile (· == '\ufeff')) :: rest

/-- The rules in a file; a missing file has none. -/
def rulesIn (t : FileTree) (base : String) (file : Path) : Rules :=
  match t.readBytes file with
  | .ok content => .ofLines base (textLines content)
  | .error _ => .ofLines base []

/-- The rules that a directory holds. -/
structure Directory where
  plain : Rules
  shared : Rules
  /-- The rules in `.git/info/exclude`. -/
  personal : Rules

namespace Directory

def read (t : FileTree) (directory : Path) : Directory :=
  let rules (file : String) := rulesIn t directory.text (directory.join file)
  ⟨rules ".ignore", rules ".gitignore", rules ".git/info/exclude"⟩

end Directory

/-- The rules around an entry. -/
structure Surroundings where
  /-- The directories from the entry up to the one where a search started, whose rules are written
  for paths as the search writes them. -/
  inside : List Directory
  /-- The directories above that one, innermost first, whose rules are written for absolute paths. -/
  outside : List Directory
  /-- The directory where the search started, as it is written. -/
  start : Path
  /-- The absolute path of that directory. -/
  base : Path

namespace Surroundings

/-- The places above a place, innermost first. -/
def placesAbove (place : Place) : List Place :=
  (List.range place.length).reverse.map place.take

/-- The rules above a directory at a place, where a search starts. -/
def above (t : FileTree) (start : Path) (place : Place) : Surroundings where
  inside := []
  outside := (placesAbove place).map fun p => Directory.read t ⟨FileTree.absolute p⟩
  start := start
  base := ⟨FileTree.absolute place⟩

/-- The rules inside a directory as well. -/
def enter (s : Surroundings) (t : FileTree) (directory : Path) : Surroundings :=
  { s with inside := Directory.read t directory :: s.inside }

/-- The absolute form of a path that a search has written. -/
def absolute (s : Surroundings) (path : String) : String :=
  let path := Rules.dropDot path.toList
  let relative :=
    if s.start.text == "." then path
    else
      let start := Rules.dropDot s.start.text.toList
      Rules.dropStart ['/'] (Rules.dropStart start path)
  (s.base.join (String.ofList relative)).text

/-- What the rules of one kind say about an entry. -/
def verdictOf (s : Surroundings) (kind : Directory → Rules) (path : String)
    (isDirectory : Bool) : Option Verdict :=
  let path := String.ofList (Rules.dropDot path.toList)
  -- the closest directory that says something is the one that counts
  (s.inside.findSome? fun d => (kind d).verdict path isDirectory) <|>
    s.outside.findSome? fun d => (kind d).verdict (s.absolute path) isDirectory

/-- What the rules say about an entry. -/
def verdict (s : Surroundings) (path : String) (isDirectory : Bool) : Option Verdict :=
  s.verdictOf (·.plain) path isDirectory <|> s.verdictOf (·.shared) path isDirectory <|>
    s.verdictOf (·.personal) path isDirectory

/-- Whether an entry is skipped: it is to be ignored, or it is hidden and nothing keeps it. -/
def skips (s : Surroundings) (path : Path) (name : String) (isDirectory : Bool) : Bool :=
  match s.verdict path.text isDirectory with
  | some .ignore => true
  | some .keep => false
  | none => name.toList.head? == some '.'

end Surroundings

end CallAtlas.Ignore
