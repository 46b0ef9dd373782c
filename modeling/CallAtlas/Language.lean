import CallAtlas.Path
/-!
# Languages

Which files are source files, and of which language, is told by their extensions.
-/

namespace CallAtlas

structure Language where
  name : String
  extensions : List String
deriving DecidableEq, Repr, Inhabited

namespace Language

def python : Language := ⟨"Python", ["py", "pyi"]⟩

/-- Whether a file is of a language. Letter case counts. -/
def handles (l : Language) (p : Path) : Bool :=
  match p.extension? with
  | some e => l.extensions.contains e
  | none => false

/-- The languages known unless told otherwise. -/
def known : List Language := [python]

def find? (ls : List Language) (p : Path) : Option Language := ls.find? (·.handles p)

/-- Whether a file is of a known language. -/
def isSource (p : Path) : Bool := (find? known p).isSome

end Language

end CallAtlas
