/-!
# TOML values

What a TOML document consists of, with the places where values are written.
-/

namespace CallAtlas.Toml

/-- A range of bytes of a text. -/
structure Span where
  start : Nat
  /-- The byte behind the last one. -/
  stop : Nat
deriving DecidableEq, Repr, Inhabited

structure Key where
  name : String
  span : Span
deriving DecidableEq, Repr, Inhabited

/-- How a table came about, which decides what may be added to it. -/
inductive TableKind where
  /-- By a value in braces. -/
  | inline
  /-- By a header. -/
  | defined
  /-- By the header of a table inside it. -/
  | implied
  /-- By a dotted key. -/
  | dotted
deriving DecidableEq, Repr, Inhabited

inductive Value where
  | string (text : String)
  | integer (value : Int)
  /-- A number with a fraction or an exponent, as it is reported. -/
  | float (shown : String)
  | boolean (value : Bool)
  | datetime
  /-- A list, whose items stand at the given places. -/
  | array (items : List (Span × Value))
  /-- A table with its members in order, each with its place. -/
  | table (kind : TableKind) (members : List (String × Span × Value))
  /-- The tables of headers in double brackets, each with its place. -/
  | tables (elements : List (Span × List (String × Span × Value)))
deriving Inhabited, Repr

abbrev Members := List (String × Span × Value)

/-- Something went wrong at a place of a document. -/
structure Fault where
  span : Span
  message : String
deriving DecidableEq, Repr, Inhabited

namespace Fault

/-- The number of lines before a byte, and the number of characters of its line before it; where the
byte begins a character of several bytes, the bytes of the line count instead. -/
def position (text : List Char) (index : Nat) : Nat × Nat :=
  let rec go : List Char → (offset line begin column : Nat) → Nat × Nat
    | [], offset, line, _, column => (line, column + (index - offset))
    | c :: rest, offset, line, begin, column =>
      if index < offset + c.utf8Size then
        (line, if c.utf8Size = 1 then column else index - begin)
      else
        match rest with
        | [] => (line, column + (index - offset))
        | _ =>
          if c == '\n' then go rest (offset + 1) (line + 1) (offset + 1) 0
          else go rest (offset + c.utf8Size) line begin (column + 1)
  go text 0 0 0 0

def blanks (n : Nat) : String := String.ofList (List.replicate n ' ')

/-- The report of a fault in a text: its line with the place marked, and what went wrong. -/
def report (f : Fault) (text : String) : String :=
  let (line, column) := position text.toList f.span.start
  let number := toString (line + 1)
  let content := (text.splitOn "\n").getD line ""
  let marked := max 1 (min (f.span.stop - f.span.start) (content.utf8ByteSize - column))
  "TOML parse error at line " ++ number ++ ", column " ++ toString (column + 1) ++ "\n" ++
    blanks (number.length + 1) ++ "|\n" ++
    number ++ " | " ++ content ++ "\n" ++
    blanks (number.length + 1) ++ "|" ++ blanks (column + 1) ++
    String.ofList (List.replicate marked '^') ++ "\n" ++
    f.message ++ "\n"

end Fault

end CallAtlas.Toml
