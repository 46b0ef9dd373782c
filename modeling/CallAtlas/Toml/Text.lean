import CallAtlas.Text.Hexadecimal
/-!
# TOML texts

The written forms of texts. A text is written in the first form that shows it as it is: in quotation
marks, in apostrophes, in three quotation marks, in three apostrophes; else with escapes.
-/

namespace CallAtlas.Toml.Text

/-- What decides how a text can be written. -/
structure Traits where
  backslash : Bool
  newline : Bool
  /-- Whether it has a control character that can only be escaped. -/
  control : Bool
  /-- The length of its longest run of quotation marks. -/
  quotes : Nat
  /-- The length of its longest run of apostrophes. -/
  apostrophes : Nat
deriving DecidableEq, Repr

/-- The length of the longest run of a character, counted on from a run of length `run`. -/
def longestRun (c : Char) (run best : Nat) : List Char → Nat
  | [] => best
  | d :: rest =>
    if c == d then longestRun c (run + 1) (max best (run + 1)) rest
    else longestRun c 0 best rest

/-- A control character that can only be escaped. Tabulators and line ends have forms of their
own. -/
def isControl (c : Char) : Bool :=
  (c.toNat < 0x20 && c != '\t' && c != '\n') || c == '\x7f'

def traits (text : List Char) : Traits where
  backslash := text.contains '\\'
  newline := text.contains '\n'
  control := text.any isControl
  quotes := longestRun '"' 0 0 text
  apostrophes := longestRun '\'' 0 0 text

inductive Form where
  /-- In quotation marks, with escapes. -/
  | basic
  /-- In apostrophes, as it is. -/
  | plain
  /-- In three quotation marks, with escapes. -/
  | longBasic
  /-- In three apostrophes, as it is. -/
  | longPlain
deriving DecidableEq, Repr

def Traits.form (t : Traits) : Form :=
  if !t.control && !t.backslash && t.quotes = 0 && !t.newline then .basic
  else if !t.control && t.apostrophes = 0 && !t.newline then .plain
  else if !t.control && !t.backslash && t.quotes ≤ 2 then .longBasic
  else if !t.control && t.apostrophes ≤ 2 then .longPlain
  else if t.newline then .longBasic
  else .basic

def escapeControl (c : Char) : List Char :=
  match c with
  | '\x08' => ['\\', 'b']
  | '\t' => ['\\', 't']
  | '\n' => ['\\', 'n']
  | '\x0c' => ['\\', 'f']
  | '\r' => ['\\', 'r']
  | c =>
    ['\\', 'u', '0', '0', Text.hexDigit .upper (c.toNat / 16), Text.hexDigit .upper (c.toNat % 16)]

/-- A text with escapes. In a long form line ends stand as they are, and so do quotation marks of
which no three follow each other; `run` counts those just before. -/
def escape (long : Bool) (run : Nat) : List Char → List Char
  | [] => []
  | '"' :: rest =>
    if run + 1 ≤ (if long then 2 else 0) then '"' :: escape long (run + 1) rest
    else '\\' :: '"' :: escape long 0 rest
  | '\\' :: rest => '\\' :: '\\' :: escape long 0 rest
  | '\n' :: rest =>
    if long then '\n' :: escape long 0 rest else '\\' :: 'n' :: escape long 0 rest
  | c :: rest =>
    if c.toNat < 0x20 || c == '\x7f' then escapeControl c ++ escape long 0 rest
    else c :: escape long 0 rest

/-- The written form of a text. In a long form a line end at the beginning is put before a text of
several lines. -/
def write (text : String) : String :=
  let chars := text.toList
  let t := traits chars
  let start := if t.newline then ['\n'] else []
  let long (mark : Char) (inside : List Char) : List Char :=
    [mark, mark, mark] ++ start ++ inside ++ [mark, mark, mark]
  String.ofList <|
    match t.form with
    | .basic => ['"'] ++ escape false 0 chars ++ ['"']
    | .plain => ['\''] ++ chars ++ ['\'']
    | .longBasic => long '"' (escape true 0 chars)
    | .longPlain => long '\'' chars

/-- The written form of a list of texts: several stand on lines of their own. -/
def writeList : List String → String
  | [] => "[]"
  | [text] => "[" ++ write text ++ "]"
  | texts => "[\n" ++ String.join (texts.map fun text => "    " ++ write text ++ ",\n") ++ "]"

end CallAtlas.Toml.Text
