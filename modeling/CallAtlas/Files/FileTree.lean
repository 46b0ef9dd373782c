import CallAtlas.Files.Fault
import CallAtlas.Ordered.Map
import CallAtlas.Path
/-!
# File trees

A file tree maps places, lists of names from the root on, to files, directories and links. Paths are
resolved from the working directory of the tree; links on the way are followed.
-/

namespace CallAtlas

open Files (Fault)

/-- The names that lead from the root to an entry. -/
abbrev Place := List String

-- libraries add further instances; this one does not depend on what is imported
instance bytesDecidableEq : DecidableEq ByteArray := ByteArray.instDecidableEq

inductive Entry where
  | file (content : ByteArray)
  | directory
  | link (target : String)
deriving DecidableEq, Inhabited

def Entry.isDirectory : Entry → Bool
  | directory => true
  | _ => false

/-- A tree of files. -/
@[ext]
structure FileTree where
  /-- What stands where; the root itself is not listed. -/
  entries : OrderedMap Place Entry
  /-- The directory from which paths lead on. -/
  working : Place
deriving DecidableEq

namespace FileTree

instance : Inhabited FileTree := ⟨⟨∅, []⟩⟩

/-- What stands at a place. The root is a directory. -/
def entry? (t : FileTree) (place : Place) : Option Entry :=
  if place.isEmpty then some .directory else t.entries.get? place

/-- The names in a directory with what they stand for, in order. -/
def children (t : FileTree) (place : Place) : List (String × Entry) :=
  t.entries.entries.filterMap fun (p, e) =>
    match p.getLast? with
    | some name => if p.dropLast == place then some (name, e) else none
    | none => none

/-- The tree with an entry in place of what stands at a place. -/
def put (t : FileTree) (place : Place) (e : Entry) : FileTree :=
  { t with entries := t.entries.insert place e }

/-- The tree without the entry at a place. -/
def drop (t : FileTree) (place : Place) : FileTree :=
  { t with entries := t.entries.erase place }

/-! ## Resolution -/

/-- Whether a text begins with a separator. -/
def isRooted (text : String) : Bool := text.toList.head? == some '/'

/-- Where segments lead from a directory, and what stands there. The last segment may name nothing.
At most `links` links are followed; one at the end is followed if `follow` says so. -/
def resolveFrom (t : FileTree) (follow : Bool) (links : Nat) (place : Place) :
    List String → Except Fault (Place × Option Entry)
  | [] => .ok (place, some .directory)
  | "" :: rest => resolveFrom t follow links place rest
  | "." :: rest => resolveFrom t follow links place rest
  | ".." :: rest => resolveFrom t follow links place.dropLast rest
  | name :: rest =>
    let here := place ++ [name]
    match t.entry? here with
    -- separators may stand behind the name of a directory that is still to be created
    | none => if rest.all String.isEmpty then .ok (here, none) else .error .notFound
    | some .directory => resolveFrom t follow links here rest
    | some (.file content) =>
      if rest.isEmpty then .ok (here, some (.file content)) else .error .notDirectory
    | some (.link target) =>
      if rest.isEmpty && !follow then .ok (here, some (.link target))
      else
        match links with
        | 0 => .error .tooManyLinks
        | links + 1 =>
          -- a relative target leads on from the directory of the link
          if target.isEmpty then .error .notFound
          else
            resolveFrom t follow links (if isRooted target then [] else place)
              (Path.segmentsOf target ++ rest)
termination_by segments => (links, segments.length)

/-- The greatest number of links that are followed for one path. -/
def maxLinks : Nat := 40

/-- Where a path leads, and what stands there if anything does. -/
def resolve (t : FileTree) (follow : Bool) (p : Path) : Except Fault (Place × Option Entry) :=
  if p.text.isEmpty then .error .notFound
  else
    resolveFrom t follow maxLinks (if isRooted p.text then [] else t.working) p.segments

/-- What a path leads to, if it leads to anything. -/
def find? (t : FileTree) (p : Path) : Option Entry :=
  match t.resolve true p with
  | .ok (_, e) => e
  | .error _ => none

def hasEntry (t : FileTree) (p : Path) : Bool := (t.find? p).isSome

def hasDirectory (t : FileTree) (p : Path) : Bool :=
  match t.find? p with
  | some .directory => true
  | _ => false

def hasFile (t : FileTree) (p : Path) : Bool :=
  match t.find? p with
  | some (.file _) => true
  | _ => false

/-! ## Operations -/

def readBytes (t : FileTree) (p : Path) : Except Fault ByteArray :=
  match t.resolve true p with
  | .ok (_, some (.file content)) => .ok content
  | .ok (_, some .directory) => .error .isDirectory
  | .ok (_, _) => .error .notFound
  | .error e => .error e

def readText (t : FileTree) (p : Path) : Except Fault String :=
  match t.readBytes p with
  | .ok content =>
    match String.fromUTF8? content with
    | some text => .ok text
    | none => .error .noText
  | .error e => .error e

/-- Writes a file, in place of an old one. -/
def writeBytes (t : FileTree) (p : Path) (content : ByteArray) : Except Fault FileTree :=
  match t.resolve true p with
  | .ok (_, some .directory) => .error .isDirectory
  | .ok (place, _) =>
    -- separators behind the name ask for a directory, also at the end of a link
    let written := t.put place (.file content)
    if written.hasFile p then .ok written else .error .isDirectory
  | .error e => .error e

def writeText (t : FileTree) (p : Path) (text : String) : Except Fault FileTree :=
  t.writeBytes p text.toUTF8

/-- Creates a directory where nothing stands. -/
def createDirectory (t : FileTree) (p : Path) : Except Fault FileTree :=
  match t.resolve false p with
  | .ok (place, none) => .ok (t.put place .directory)
  | .ok (_, some _) => .error .exists
  | .error e => .error e

/-- Creates the first of some directories, each of which lies in the next one, and those of the
others that it needs. An empty path stands for a directory that is there. -/
def createWithin (t : FileTree) : List Path → Except Fault FileTree
  | [] => .error .noWholeTree
  | p :: above =>
    if p.text.isEmpty then .ok t
    else
      match t.createDirectory p with
      | .ok t => .ok t
      | .error .notFound => do
        let t ← createWithin t above
        match t.createDirectory p with
        | .ok t => .ok t
        | .error e => if t.hasDirectory p then .ok t else .error e
      -- a directory may be there already, also behind a link
      | .error e => if t.hasDirectory p then .ok t else .error e

/-- Creates a directory with the directories that it needs, unless it is there. -/
def createDirectories (t : FileTree) (p : Path) : Except Fault FileTree :=
  t.createWithin (p :: p.ancestors)

/-- What lies below a place, in order. -/
def below (t : FileTree) (place : Place) : List (Place × Entry) :=
  t.entries.entries.filter fun (p, _) => place.isPrefixOf p && p != place

/-- Removes what a path leads to, a directory with everything below it. -/
def removeTree (t : FileTree) (p : Path) : Except Fault FileTree :=
  match t.resolve false p with
  | .ok (place, some .directory) =>
    .ok ((t.below place).foldl (fun t (q, _) => t.drop q) (t.drop place))
  | .ok (place, some _) => .ok (t.drop place)
  | .ok (_, none) => .error .notFound
  | .error e => .error e

/-- Removes what a path leads to, unless it is a directory. -/
def removeFile (t : FileTree) (p : Path) : Except Fault FileTree :=
  match t.resolve false p with
  | .ok (_, some .directory) => .error .isDirectory
  | _ => t.removeTree p

/-- The text of a path to a place. -/
def absolute (place : Place) : String := "/" ++ "/".intercalate place

end FileTree

end CallAtlas
