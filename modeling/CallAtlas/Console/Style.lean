/-!
# Text styles

How text stands out on a terminal: a style is a list of numeric attributes, written as an escape
sequence before the text and taken back after it. A style without attributes leaves text as it is.
-/

namespace CallAtlas.Console

/-- A list of terminal attributes. -/
structure Style where
  attributes : List Nat
deriving DecidableEq, Repr, Inhabited

namespace Style

/-- The style that leaves text as it is. -/
def plain : Style := ⟨[]⟩

def paint (s : Style) (text : String) : String :=
  match s.attributes with
  | [] => text
  | codes => "\x1b[" ++ ";".intercalate (codes.map toString) ++ "m" ++ text ++ "\x1b[0m"

end Style

/-- The styles of the parts of a report. -/
structure Theme where
  header : Style
  /-- Good news. -/
  success : Style
  error : Style
  warn : Style
  /-- Hints. -/
  info : Style
  /-- Labels and separators. -/
  dim : Style
  /-- Paths. -/
  muted : Style
  /-- Nodes on cycles. -/
  cycle : Style
deriving DecidableEq, Repr

namespace Theme

/-- The theme for terminals that show colors. -/
def colored : Theme where
  header := ⟨[36, 1]⟩
  success := ⟨[32, 1]⟩
  error := ⟨[31, 1]⟩
  warn := ⟨[33, 1]⟩
  info := ⟨[35]⟩
  dim := ⟨[37, 2]⟩
  muted := ⟨[90]⟩
  cycle := ⟨[31]⟩

/-- The theme for output that is no terminal. -/
def plain : Theme :=
  ⟨.plain, .plain, .plain, .plain, .plain, .plain, .plain, .plain⟩

end Theme

end CallAtlas.Console
