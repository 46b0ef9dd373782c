import CallAtlas.Python.Tree
import CallAtlas.Text.Identifier
/-!
# Scanning Python source

A `Scan` is a reading position together with the open blocks and open strings there. Which token
comes next depends on what the grammar allows at that point (`Mode`): a line end counts only where
a statement may end, a block opens only after a colon, and inside brackets the layout is free.
`Scan.next` gives the next token with the comments and line joins before it.
-/

namespace CallAtlas.Python

/-- How an open string literal is delimited and read. -/
structure Quote where
  mark : Char
  triple : Bool
  /-- Whether a backslash is an ordinary character. -/
  raw : Bool
  bytes : Bool
  /-- Whether braces hold interpolated expressions. -/
  format : Bool

/-- What the grammar allows at a reading position, as far as scanning depends on it. -/
structure Mode where
  /-- A statement may end here. -/
  newline : Bool := false
  /-- A block may open here. -/
  indent : Bool := false
  /-- A block may close here. -/
  dedent : Bool := false
  /-- A string literal may begin here. -/
  string : Bool := false
  /-- A closing bracket may stand here. -/
  closer : Bool := false
  /-- A handler of a `try` statement may stand here. -/
  handler : Bool := false

/-- A reading position. -/
structure Scan where
  /-- The text that is still to be read. -/
  rest : List Char
  /-- The row of the position, counted from 0. -/
  row : Nat := 0
  /-- The indentation of the open blocks, innermost first. -/
  indents : List Nat := []
  /-- The open string literals, innermost first. -/
  quotes : List Quote := []
  /-- Whether the last delimiter read opened a literal with interpolated expressions. -/
  inFormat : Bool := false

/-- The next token, as far as it can be told without knowing the grammar rule that reads it. -/
inductive Lexeme where
  | newline
  | indent (width : Nat)
  | dedent
  /-- The opening of a string literal, with the length of its flags and delimiter. -/
  | quote (quote : Quote) (length : Nat)
  /-- A keyword or name. -/
  | word (text : List Char)
  | finish
  /-- Punctuation, a number or a character that begins no token. -/
  | mark
deriving Inhabited

/-- What the line structure says about the blanks after a position. -/
structure Margin where
  /-- Whether a line ended among the blanks. -/
  ended : Bool
  /-- The indentation of the line on which the next token stands. -/
  indent : Nat
  /-- The indentation of the first comment line passed over. -/
  comment : Option Nat
  /-- The text from the next token on. -/
  rest : List Char

/-- Passes over blanks, line ends and, where `comments` is set, comment lines. The answer is `none`
at a trailing comment and at a backslash that joins no lines. -/
def margin (comments : Bool) : (text : List Char) → (inComment ended : Bool) → (indent : Nat) →
    (comment : Option Nat) → Option Margin
  | [], _, _, _, comment => some ⟨true, 0, comment, []⟩
  | c :: rest, true, ended, indent, comment =>
    if c == '\n' || c == '\x00' then margin comments rest false ended 0 comment
    else margin comments rest true ended indent comment
  | '\n' :: rest, false, _, _, comment => margin comments rest false true 0 comment
  | ' ' :: rest, false, ended, indent, comment =>
    margin comments rest false ended (indent + 1) comment
  | '\r' :: rest, false, ended, _, comment => margin comments rest false ended 0 comment
  | '\x0c' :: rest, false, ended, _, comment => margin comments rest false ended 0 comment
  | '\t' :: rest, false, ended, indent, comment =>
    margin comments rest false ended (indent + 8) comment
  | '#' :: rest, false, ended, indent, comment =>
    if !comments then some ⟨ended, indent, comment, '#' :: rest⟩
    else if !ended then none
    else margin comments rest true ended indent (comment.or (some indent))
  | '\\' :: '\r' :: '\n' :: rest, false, ended, indent, comment =>
    margin comments rest false ended indent comment
  | '\\' :: '\n' :: rest, false, ended, indent, comment =>
    margin comments rest false ended indent comment
  | ['\\', '\r'], false, _, _, comment => some ⟨true, 0, comment, []⟩
  | ['\\'], false, _, _, comment => some ⟨true, 0, comment, []⟩
  | '\\' :: _, false, _, _, _ => none
  | c :: rest, false, ended, indent, comment => some ⟨ended, indent, comment, c :: rest⟩

/-- Reads the flags and the delimiter of a string literal, with their common length. -/
def openQuote : (text : List Char) → (length : Nat) → Quote → Option (Quote × Nat)
  | [], _, _ => none
  | c :: rest, n, q =>
    if c == 'f' || c == 'F' then openQuote rest (n + 1) { q with format := true }
    else if c == 'r' || c == 'R' then openQuote rest (n + 1) { q with raw := true }
    else if c == 'b' || c == 'B' then openQuote rest (n + 1) { q with bytes := true }
    else if c == 'u' || c == 'U' then openQuote rest (n + 1) q
    else if c == '\x60' then some ({ q with mark := c }, n + 1)
    else if c == '\'' || c == '"' then
      match rest with
      | d :: e :: _ =>
        if d == c && e == c then some ({ q with mark := c, triple := true }, n + 3)
        else some ({ q with mark := c }, n + 1)
      | _ => some ({ q with mark := c }, n + 1)
    else none

/-- A blank that separates tokens. -/
def isBlank (c : Char) : Bool :=
  c == ' ' || ('\t' ≤ c && c ≤ '\r') || c == '\u200b' || c == '\u2060' || c == '\ufeff'

def lineEnds (text : List Char) : Nat := text.count '\n'

namespace Scan

/-- The indentation of the innermost open block. -/
def indentation (s : Scan) : Nat := s.indents.headD 0

def advance (s : Scan) (n : Nat) : Scan :=
  { s with rest := s.rest.drop n, row := s.row + lineEnds (s.rest.take n) }

/-- The token that the layout and the string delimiters determine, if any, with the number of
blanks before it. -/
def external (m : Mode) (s : Scan) : Option (Lexeme × Nat) :=
  let comments := m.indent || m.dedent || m.newline || m.handler
  match margin comments s.rest false false 0 none with
  | none => none
  | some line =>
    let atQuote := match line.rest with
      | c :: _ => c == '"' || c == '\'' || c == '\x60'
      | [] => false
    let closes := m.dedent || !(m.newline || (m.string && atQuote) || m.closer)
    let settled := match line.comment with
      | none => true
      | some width => width < s.indentation
    if line.ended && m.indent && s.indentation < line.indent then some (.indent line.indent, 0)
    else if line.ended && closes && line.indent < s.indentation && !s.inFormat && settled then
      some (.dedent, 0)
    else if line.ended && m.newline then some (.newline, 0)
    else if line.comment.isNone && m.string then
      (openQuote line.rest 0 ⟨'"', false, false, false, false⟩).map fun (q, n) =>
        (.quote q n, s.rest.length - line.rest.length)
    else none

/-- The token at the very position, which is past all blanks. -/
def internal (s : Scan) : Lexeme :=
  match s.rest with
  | [] => .finish
  | c :: rest =>
    if Text.isIdentifierStart c then .word (c :: rest.takeWhile Text.isIdentifierContinue)
    else .mark

/-- A token together with what stands before it. -/
structure Found where
  /-- The comments and line joins before the token. -/
  extras : List Tree
  /-- The blanks before the token. -/
  blank : List Char
  lexeme : Lexeme
  start : Scan

/-- The length of a line join at the head of a text. -/
def joinLength : List Char → Option Nat
  | '\\' :: '\r' :: '\n' :: _ => some 3
  | '\\' :: '\n' :: _ => some 2
  | '\\' :: '\x00' :: _ => some 2
  | ['\\'] => some 1
  | _ => none

/-- The next token; `fuel` bounds the number of comments and line joins before it. -/
def nextWithin (m : Mode) : (fuel : Nat) → Scan → (extras : List Tree) → Found
  | 0, s, extras => ⟨extras.reverse, [], .mark, s⟩
  | fuel + 1, s, extras =>
    match s.external m with
    | some (lexeme, n) => ⟨extras.reverse, s.rest.take n, lexeme, s.advance n⟩
    | none =>
      let blank := s.rest.takeWhile isBlank
      let t := s.advance blank.length
      match t.rest with
      | '#' :: _ =>
        let text := t.rest.takeWhile (· != '\n')
        nextWithin m fuel (t.advance text.length) (.leaf .comment t.row blank text :: extras)
      | _ =>
        match joinLength t.rest with
        | some n =>
          nextWithin m fuel (t.advance n)
            (.leaf .lineContinuation t.row blank (t.rest.take n) :: extras)
        | none => ⟨extras.reverse, blank, t.internal, t⟩

/-- The next token where the grammar allows `m`. -/
def next (m : Mode) (s : Scan) : Found := nextWithin m (s.rest.length + 1) s []

end Scan

end CallAtlas.Python
