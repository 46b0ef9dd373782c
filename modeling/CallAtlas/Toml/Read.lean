import CallAtlas.Toml.Number
import CallAtlas.Toml.Tree
/-!
# Reading TOML

`read` gives the members of the root table of a document, or the first fault of its text. Values may
be nested up to a limit.
-/

namespace CallAtlas.Toml

open Scan

namespace Scan

/-- The greatest nesting of lists and tables in braces. -/
def maxNesting : Nat := 79

def tooNested : String := "recursion limit exceeded"

/-- The complaint about something that is no value, as if quotation marks had been forgotten. -/
def noString : String := "invalid string\nexpected \x60\"\x60, \x60'\x60"

def noValue (next : Option Char) : String :=
  match next with
  | none => ""
  | some c =>
    if c == '+' || c == '-' then "invalid integer"
    else if c == '_' then "invalid integer\nexpected leading digit"
    else if c == '.' then "invalid floating-point number\nexpected leading digit"
    else noString

/-- Reads a value with its place; the answer is `none`, and nothing is read, where there is none. -/
abbrev MayRead := Scan (Option (Span × Value))

def must (value : MayRead) : Scan (Span × Value) := do
  match ← value with
  | some v => return v
  | none => fail (noValue (← peek))

/-- Reads the items of a list behind the first ones, latest first, and the gap behind them. -/
def items (value : MayRead) : (fuel : Nat) → (before : List (Span × Value)) →
    Scan (List (Span × Value))
  | 0, before => return before.reverse
  | fuel + 1, before => do
    gap
    match ← value with
    | none => return before.reverse
    | some v =>
      gap
      if ← accept "," then items value fuel (v :: before)
      else return (v :: before).reverse

def arrayRest (value : MayRead) : Scan Value := do
  let vs ← items value ((← rest).length + 1) []
  gap
  if ← accept "]" then return .array vs else fail "invalid array\nexpected \x60]\x60"

def equals : Scan Unit := do
  if !(← accept "=") then fail "expected \x60.\x60, \x60=\x60"

/-- Reads the members of a table in braces behind those before. -/
def pairs (value : MayRead) : (fuel : Nat) → Members → Scan Members
  | 0, ms => return ms
  | fuel + 1, ms => do
    let start ← offset
    let path ← key
    equals
    blanks
    let v ← must value
    blanks
    match path.getLast? with
    | none => return ms
    | some k =>
      match Members.insertAt none [] k v path.dropLast ms with
      | .error e => failAt start e.message
      | .ok ms =>
        if ← startsWith "," then do
          let before ← get
          skip 1
          blanks
          match ← peek with
          | some c =>
            if isKeyChar c || c == '"' || c == '\'' then pairs value fuel ms
            else do
              set before
              return ms
          | none => do
            set before
            return ms
        else return ms

def tableRest (value : MayRead) : Scan Value := do
  blanks
  let ms ←
    if ← startsWith "\x7d" then pure []
    else
      match ← peek with
      | some c =>
        if isKeyChar c || c == '"' || c == '\'' then pairs value ((← rest).length + 1) []
        else pure []
      | none => pure []
  if ← accept "\x7d" then return .table .inline ms
  else fail "invalid inline table\nexpected \x60\x7d\x60"

/-- Reads a word that must be written in full once its first letter stands there. -/
def word (text : String) (v : Value) : Scan (Option Value) := do
  if ← accept text then return some v else fail noString

/-- Reads a value without its place, given how the values inside it are read. -/
def bareValue (inner : MayRead) : Scan (Option Value) := do
  match ← peek with
  | none => return none
  | some c =>
    if c == '"' || c == '\'' then return some (.string (← quoted))
    else if c == '[' then do
      skip 1
      return some (← arrayRest inner)
    else if c == '\x7b' then do
      skip 1
      return some (← tableRest inner)
    else if c == '+' || c == '-' || c.isDigit then number
    else if c == 't' then word "true" (.boolean true)
    else if c == 'f' then word "false" (.boolean false)
    else if c == 'i' then
      if ← accept "inf" then return some (.float "inf.0") else return none
    else if c == 'n' then
      if ← accept "nan" then return some (.float "NaN.0") else return none
    else return none

/-- Reads a value with its place, inside which values may be nested so deep. -/
def valueWithin : (nesting : Nat) → MayRead
  | 0 => fail tooNested
  | nesting + 1 => do
    let start ← offset
    match ← bareValue (valueWithin nesting) with
    | none => return none
    | some v => return some (⟨start, ← offset⟩, v)

def value : MayRead := valueWithin (maxNesting + 1)

structure Document where
  root : Members := []
  /-- The path of the table that keys belong to. -/
  current : List Key := []

def pair (d : Document) : Scan Document := do
  let start ← offset
  let path ← key
  equals
  blanks
  let v ← must value
  lineEnd
  match path.getLast? with
  | none => return d
  -- the last part of a dotted key names the member, those before it the tables around it
  | some k =>
    let table := d.current.map (·.name)
    match d.root.alterAt (Members.insertAt (some table) [] k v path.dropLast) [] d.current with
    | .ok root => return { d with root }
    | .error e => failAt start e.message

def header (d : Document) : Scan Document := do
  let start ← offset
  let isElement ← startsWith "[["
  let close := if isElement then "]]" else "]"
  skip close.length
  let path ← key
  if !(← accept close) then
    fail ("invalid table header\nexpected \x60.\x60, \x60" ++ close ++ "\x60")
  let span : Span := ⟨start, ← offset⟩
  lineEnd
  let opened := if isElement then d.root.openElement path span else d.root.openTable path span
  match opened with
  | .ok root => return ⟨root, path⟩
  | .error e => failAt start ("invalid table header\n" ++ e.message)

def lines : (fuel : Nat) → Document → Scan Document
  | 0, d => return d
  | fuel + 1, d => do
    blanks
    match ← peek with
    | none => return d
    | some '#' => do
      lineEnd
      lines fuel d
    | some '[' => do lines fuel (← header d)
    | some c =>
      if c == '\n' || c == '\r' then do
        lineEnd
        lines fuel d
      else do lines fuel (← pair d)

end Scan

/-- The members of the root table of a document. Every line passes a character, so that the length
bounds the lines. -/
def read (text : String) : Except Fault Members :=
  let chars := text.toList
  let start : Cursor :=
    if chars.head? == some '\ufeff' then ⟨chars.drop 1, 3⟩ else ⟨chars, 0⟩
  match (Scan.lines (chars.length + 1) {}).run start with
  | .ok (d, _) => .ok d.root
  | .error e => .error e

end CallAtlas.Toml
