import CallAtlas.Console.Elapsed
import CallAtlas.Console.Style
import CallAtlas.Console.Table
/-!
# Lines of a report

The parts of which the command line's report consists, and how they are written in the styles of a
theme. Warnings and failures go to the error output, everything else to the standard output.
-/

namespace CallAtlas.Console

/-- A cycle as its nodes joined by arrows. -/
def cycleText (t : Theme) (cycle : List String) : String :=
  (" " ++ t.dim.paint "→" ++ " ").intercalate (cycle.map t.cycle.paint)

inductive Stream where
  | output
  | error
deriving DecidableEq, Repr

inductive Line where
  | verbatim (stream : Stream) (text : String)
  /-- The beginning of a full run. -/
  | header (text : String)
  /-- The beginning of a single stage. -/
  | phase (name : String)
  | info (label value : String)
  /-- A named value of a stage behind an icon. -/
  | status (icon label value : String)
  /-- Good news. -/
  | success (text : String)
  /-- Something to look at. -/
  | warning (text : String)
  /-- What stopped a run. -/
  | failure (text : String)
  | section (title : String)
  | table (table : Table)
  | cycle (number : Nat) (nodes : List String)
  | artifact (path : String)
  /-- The time and the sizes of a full run. -/
  | summary (statistics : Statistics)
  | elapsed
deriving DecidableEq, Repr

namespace Line

def stream : Line → Stream
  | verbatim stream _ => stream
  | warning _ => .error
  | failure _ => .error
  | _ => .output

/-- A number, with blanks before it if it has fewer than three digits. -/
def padNumber (n : Nat) : String :=
  let digits := toString n
  String.ofList (List.replicate (3 - digits.length) ' ') ++ digits

/-- A part in a theme, given the time that the run has taken. -/
def render (t : Theme) (time : Elapsed) : Line → String
  | verbatim _ text => text
  | header text => "🚀 " ++ t.header.paint text ++ "\n"
  | phase name => "\n" ++ t.info.paint "⚙️" ++ " " ++ t.header.paint name ++ "\n"
  | info label value =>
    t.info.paint "ℹ️" ++ " " ++ t.dim.paint label ++ ": " ++ value ++ "\n"
  | status icon label value => icon ++ " " ++ t.dim.paint label ++ ": " ++ value ++ "\n"
  | success text => "✅ " ++ t.success.paint text ++ "\n"
  | warning text => "⚠️ " ++ t.warn.paint text ++ "\n"
  | failure text => "❌ " ++ t.error.paint text ++ "\n"
  | .section title => "\n━" ++ t.header.paint title ++ "━\n"
  | table rows => rows.render ++ "\n"
  | cycle number nodes => "  🔁 " ++ padNumber number ++ ". " ++ cycleText t nodes ++ "\n"
  | artifact path => "  📄 " ++ t.muted.paint path ++ "\n"
  | summary s =>
    "\n" ++ t.success.paint "✅" ++ " " ++ t.success.paint ("Complete in " ++ time.rough) ++ "\n" ++
      "  " ++ t.info.paint "📄" ++ " " ++ toString s.files ++
      "  " ++ t.info.paint "📦" ++ " " ++ toString s.scopes ++
      "  " ++ t.info.paint "🔗" ++ " " ++ toString s.callEdges ++ "\n"
  | elapsed => t.dim.paint "⏱️" ++ " " ++ time.precise ++ "\n"

end Line

/-- What of a report goes to a stream. -/
def written (stream : Stream) (t : Theme) (time : Elapsed) (lines : List Line) : String :=
  String.join ((lines.filter fun l => l.stream == stream).map fun l => l.render t time)

end CallAtlas.Console
