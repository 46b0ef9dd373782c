import CallAtlas.Python.Scan.Literal
/-!
# Reading by rules

A rule reads one construct at a reading position and gives the trees of its tokens in order, with
the comments and line joins in front of the first one. The grammar is recursive: rules refer to one
another through `Grammar.rule`, which is tied up with a bound on the depth of nesting.
-/

namespace CallAtlas.Python

/-- Where a rule could not go on. -/
structure Fault where
  /-- The row of the token that no rule accepts. -/
  row : Nat
  /-- The number of characters from that token to the end of the source. -/
  left : Nat
  atEnd : Bool
  /-- The row of the statement that is to blame, if it is known. -/
  origin : Option Nat := none

/-- Reads at a position and moves it. -/
abbrev Parse := StateT Scan (Except Fault)

/-- What may follow an expression. -/
structure Context where
  newline : Bool := false
  closer : Bool := false
  /-- A following `if` belongs to the expression. -/
  conditional : Bool := true

/-- The mode behind a complete operand. -/
def Context.after (c : Context) : Mode := { newline := c.newline, closer := c.closer }

/-- The mode where an operand may stand or be left out. -/
def Context.optional (c : Context) : Mode :=
  { newline := c.newline, closer := c.closer, string := true }

/-- The mode where an operand must stand. -/
def Mode.operand : Mode := { string := true }

/-- The mode where only a fixed token or a name may stand. -/
def Mode.fixed : Mode := {}

/-- The constructs through which the grammar is recursive. -/
inductive Goal where
  /-- An expression whose operators bind at least as tightly as `level`. -/
  | expression (start : Mode) (context : Context) (level : Nat)
  /-- An operand of comparisons whose operators bind at least as tightly as `level`. -/
  | operand (start : Mode) (context : Context) (level : Nat)
  /-- The type of a name or of a result; `bounded` lets a bound follow after a colon. -/
  | type (start : Mode) (context : Context) (bounded : Bool)
  /-- What stands between braces in a string literal, as a node of the given kind. -/
  | interpolation (kind : Kind)
  /-- What stands behind an assignment sign: a value or a further assignment. -/
  | assigned
  /-- The parameters of a lambda. -/
  | lambdaParameters
  /-- A pattern of a `case` clause. -/
  | casePattern (start : Mode) (context : Context)
  /-- A pattern that binds nothing but the names in it. -/
  | simplePattern (start : Mode) (context : Context)
  /-- A statement where the enclosing block allows `outer`. -/
  | statement (outer : Mode)
  /-- What follows the colon of a compound statement. -/
  | suite

/-- The grammar as one of its rules sees it. -/
structure Grammar where
  /-- Reads a construct. -/
  rule : Goal → Parse (List Tree)
  /-- Bounds the repetitions within one construct. -/
  fuel : Nat

/-! ### Tokens -/

/-- Operators and delimiters of more than one character, longest first. The sign of a named
expression is no part of the list, since it stands only behind a name. -/
def longMarks : List (List Char) :=
  ["**=", "//=", ">>=", "<<=", "...", "**", "//", ">>", "<<", "<=", ">=", "==", "!=", "<>", "->",
    "+=", "-=", "*=", "/=", "%=", "@=", "&=", "|=", "^="].map String.toList

namespace Scan.Found

def isWord (f : Found) (w : String) : Bool :=
  match f.lexeme with
  | .word text => text == w.toList
  | _ => false

def isOneOf (f : Found) (ws : List String) : Bool := ws.any f.isWord

/-- The operator or delimiter at the token, as long as possible. -/
def mark (f : Found) : List Char :=
  match f.lexeme with
  | .mark =>
    match longMarks.find? (·.isPrefixOf f.start.rest) with
    | some m => m
    | none => f.start.rest.take 1
  | _ => []

def isMark (f : Found) (m : String) : Bool := f.mark == m.toList

def number (f : Found) : Option (Kind × Nat) :=
  match f.lexeme with
  | .mark => numberLength f.start.rest
  | _ => none

def startsExpression (f : Found) : Bool :=
  match f.lexeme with
  | .quote .. | .word _ => true
  | .mark => f.number.isSome || ["(", "[", "\x7b", "-", "+", "~", "*", "..."].any f.isMark
  | _ => false

/-- The token's first `n` characters as a leaf, behind the comments before it. -/
def leaf (f : Found) (kind : Kind) (n : Nat) : List Tree :=
  f.extras ++ [.leaf kind f.start.row f.blank (f.start.rest.take n)]

end Scan.Found

open Scan (Found)

/-- The next token where `m` holds, without moving. -/
def peek (m : Mode) : Parse Found := return (← get).next m

def fault {α : Type} (f : Found) : Parse α :=
  let atEnd := match f.lexeme with
    | .finish => true
    | _ => false
  throw { row := f.start.row, left := f.start.rest.length, atEnd }

/-- Gives up at a token because of a statement that began on an earlier row. -/
def faultOf {α : Type} (row : Nat) (f : Found) : Parse α := fun s =>
  match fault (α := α) f s with
  | .error e => .error { e with origin := some row }
  | r => r

/-- Reads a statement that begins on a row. It is to blame for a fault on that row, but not for
source that ends too early: then brackets are open, and all that was read may be wrong. -/
def blaming {α : Type} (row : Nat) (p : Parse α) : Parse α := fun s =>
  match p s with
  | .error e =>
    .error (if e.origin.isNone && e.row = row && !e.atEnd then { e with origin := some row } else e)
  | r => r

/-- Moves past the first `n` characters of a token and gives them as a leaf. -/
def consume (f : Found) (kind : Kind) (n : Nat) : Parse (List Tree) := do
  set (f.start.advance n)
  return f.leaf kind n

def consumeMark (f : Found) : Parse (List Tree) := consume f .symbol f.mark.length

/-- Reads a word. -/
def consumeWord (f : Found) (kind : Kind) : Parse (List Tree) :=
  match f.lexeme with
  | .word text => consume f kind text.length
  | _ => fault f

def mark (m : Mode) (text : String) : Parse (List Tree) := do
  let f ← peek m
  if f.isMark text then consumeMark f else fault f

/-- Reads the given operator or delimiter if it is next. -/
def mark? (m : Mode) (text : String) : Parse (Option (List Tree)) := do
  let f ← peek m
  if f.isMark text then some <$> consumeMark f else return none

def keyword (m : Mode) (text : String) : Parse (List Tree) := do
  let f ← peek m
  if f.isWord text then consumeWord f .symbol else fault f

def name (m : Mode) : Parse (List Tree) := do
  consumeWord (← peek m) .identifier

/-- Reads by `p`; if that fails, by `q` from the same position. Of two failures the farther one
is reported. -/
def orElse {α : Type} (p q : Parse α) : Parse α := fun s =>
  match p s with
  | .ok r => .ok r
  | .error e₁ =>
    match q s with
    | .ok r => .ok r
    | .error e₂ => .error (if e₁.left < e₂.left then e₁ else e₂)

/-! ### Repetition -/

/-- Extends what has been read for as long as `step` finds more. -/
def extendBy (step : List Tree → Parse (Option (List Tree))) :
    (fuel : Nat) → List Tree → Parse (List Tree)
  | 0, parts => return parts
  | fuel + 1, parts => do
    match ← step parts with
    | some longer => extendBy step fuel longer
    | none => return parts

/-- Reads `, item` again and again. A comma behind which `ends` holds closes the list. -/
def furtherItems (after afterComma : Mode) (ends : Found → Bool) (item : Parse (List Tree)) :
    (fuel : Nat) → (before : List (List Tree)) → Parse (List Tree)
  | 0, before => return before.reverse.flatten
  | fuel + 1, before => do
    let f ← peek after
    if f.isMark "," then
      let comma ← consumeMark f
      if ends (← peek afterComma) then return (comma :: before).reverse.flatten
      else furtherItems after afterComma ends item fuel ((← item) :: comma :: before)
    else return before.reverse.flatten

/-- Reads parts again and again until `step` finds no more. -/
def readMany (step : Parse (Option (List Tree))) :
    (fuel : Nat) → (before : List (List Tree)) → Parse (List Tree)
  | 0, before => return before.reverse.flatten
  | fuel + 1, before => do
    match ← step with
    | some part => readMany step fuel (part :: before)
    | none => return before.reverse.flatten

end CallAtlas.Python
