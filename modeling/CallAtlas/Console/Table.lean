import CallAtlas.Console.Width
import CallAtlas.Graph.Statistics
/-!
# Tables

Tables in rounded frames. A cell may have several lines; the lines of a row stand below each other,
and every column is as wide as its widest line.
-/

namespace CallAtlas.Console

structure Table where
  header : List String
  /-- The cells row by row. -/
  rows : List (List String)
deriving DecidableEq, Repr, Inhabited

namespace Table

def cellLines (cell : String) : List String := cell.splitOn "\n"

def cellWidth (cell : String) : Nat := ((cellLines cell).map lineWidth).foldl max 0

def columnWidths (t : Table) : List Nat :=
  t.header.zipIdx.map fun (title, i) =>
    (t.rows.map fun row => cellWidth (row.getD i "")).foldl max (cellWidth title)

/-- A line with blanks on both sides that fill its column. -/
def pad (width : Nat) (line : String) : String :=
  " " ++ line ++ String.ofList (List.replicate (width - lineWidth line) ' ') ++ " "

/-- A horizontal rule with the given ends and junctions. -/
def rule (left junction right : String) (widths : List Nat) : String :=
  left ++ junction.intercalate (widths.map fun w => String.ofList (List.replicate (w + 2) '─')) ++
    right

def rowLines (widths : List Nat) (row : List String) : List String :=
  let cells := row.map cellLines
  let height := (cells.map List.length).foldl max 0
  (List.range height).map fun i =>
    "│" ++ "│".intercalate ((cells.zip widths).map fun (lines, w) => pad w (lines.getD i "")) ++ "│"

/-- The text of a table, without a line end behind it; a table without rows has none. -/
def render (t : Table) : String :=
  if t.rows.isEmpty then ""
  else
    let widths := t.columnWidths
    "\n".intercalate
      ([rule "╭" "┬" "╮" widths] ++ rowLines widths t.header ++ [rule "├" "┼" "┤" widths] ++
        t.rows.flatMap (rowLines widths) ++ [rule "╰" "┴" "╯" widths])

/-- A table of named values. -/
def ofMetrics (metrics : List (String × String)) : Table :=
  ⟨["Metric", "Value"], metrics.map fun (label, value) => [label, value]⟩

def ofStatistics (s : Statistics) : Table :=
  ofMetrics [("Files analyzed", toString s.files), ("Scopes", toString s.scopes),
    ("Call edges", toString s.callEdges), ("Importing modules", toString s.modules),
    ("Import edges", toString s.importEdges)]

/-- The table of files that failed, with the reasons. -/
def ofFailures (failures : List (String × String)) : Table :=
  ⟨["File", "Reason"], failures.map fun (file, reason) => [file, reason]⟩

/-- The table of modules that several files share. -/
def ofCollisions (collisions : List (String × List String)) : Table :=
  ⟨["Module", "Files"], collisions.map fun (module, files) => [module, "\n".intercalate files]⟩

end Table

end CallAtlas.Console
