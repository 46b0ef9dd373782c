/-!
# Paths

Paths are kept as they are written, since reports show them so. What a path means is read off its
components: repeated separators count once, and a dot counts only at the beginning. Paths are
ordered component by component.
-/

namespace CallAtlas

inductive Component where
  /-- The separator that an absolute path begins with. -/
  | root
  /-- The dot that a path begins with. -/
  | current
  /-- The step to the directory above. -/
  | parent
  | normal (name : String)
deriving DecidableEq, Repr, Inhabited

namespace Component

def rank : Component → Nat
  | root => 0
  | current => 1
  | parent => 2
  | normal _ => 3

def name : Component → String
  | normal n => n
  | _ => ""

instance : Ord Component := ⟨compareLex (compareOn rank) (compareOn name)⟩

instance : Std.TransOrd Component :=
  inferInstanceAs (Std.TransCmp (compareLex (compareOn rank) (compareOn name)))

end Component

structure Path where
  text : String
deriving DecidableEq, Repr, Inhabited

namespace Path

def isAbsolute (p : Path) : Bool := p.text.toList.head? == some '/'

/-- The parts of a text between separators, empty ones included. -/
def segmentsOf (text : String) : List String := (text.toList.splitOn '/').map String.ofList

/-- The parts of a path between separators, empty ones included. -/
def segments (p : Path) : List String := segmentsOf p.text

/-- The component that a segment stands for behind other ones. -/
def componentOf : String → Option Component
  | "" => none
  | "." => none
  | ".." => some .parent
  | name => some (.normal name)

def components (p : Path) : List Component :=
  let rest := p.segments.filterMap componentOf
  if p.isAbsolute then .root :: rest
  else if p.segments.head? == some "." then .current :: rest
  else rest

instance : Ord Path := ⟨compareOn components⟩

instance : Std.TransOrd Path := inferInstanceAs (Std.TransCmp (compareOn components))

/-- The last component of a path, if it is a name. -/
def fileName? (p : Path) : Option String :=
  match p.components.getLast? with
  | some (.normal name) => some name
  | _ => none

/-- A name without its extension, and the extension behind its last dot. A dot at the beginning
starts no extension. -/
def splitName (name : String) : String × Option String :=
  let behind := name.toList.reverse.takeWhile (· != '.')
  let stem := (name.toList.reverse.dropWhile (· != '.')).drop 1
  if stem.isEmpty then (name, none)
  else (String.ofList stem.reverse, some (String.ofList behind.reverse))

def stem? (p : Path) : Option String := p.fileName?.map fun name => (splitName name).1

def extension? (p : Path) : Option String := p.fileName?.bind fun name => (splitName name).2

/-- The path of something below a path. An absolute path takes its place. -/
def join (p : Path) (below : String) : Path :=
  if below.toList.head? == some '/' || p.text.isEmpty then ⟨below⟩
  else if p.text.toList.getLast? == some '/' then ⟨p.text ++ below⟩
  else ⟨p.text ++ "/" ++ below⟩

def componentText : Component → String
  | .root => ""
  | .current => "."
  | .parent => ".."
  | .normal name => name

def ofComponents : List Component → Path
  | [.root] => ⟨"/"⟩
  | cs => ⟨"/".intercalate (cs.map componentText)⟩

/-- The directory above a path; there is none above a root and above nothing. -/
def parent? (p : Path) : Option Path :=
  match p.components.getLast? with
  | none => none
  | some .root => none
  | some _ => some (ofComponents p.components.dropLast)

/-- The beginnings of components that leave out at least one of them, longest first, except that
nothing lies above a root. -/
def properPrefixes (cs : List Component) : List (List Component) :=
  ((List.range cs.length).reverse.map cs.take).filter fun before =>
    !(before.isEmpty && cs.head? == some .root)

/-- The directories above a path, innermost first. -/
def ancestors (p : Path) : List Path := (properPrefixes p.components).map ofComponents

/-- The module that a file is: its name without the extension. -/
def moduleName (p : Path) : String := p.stem?.getD ""

end Path

end CallAtlas
