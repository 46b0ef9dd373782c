import CallAtlas.Text.Hexadecimal
import CallAtlas.Toml.Value
/-!
# Scanning TOML

The small parts of a document: blanks, line ends, comments, keys and quoted texts. A scanner goes
through a text from left to right and counts the bytes it has passed.
-/

namespace CallAtlas.Toml

structure Cursor where
  /-- What is still to be read. -/
  rest : List Char
  offset : Nat := 0
deriving Repr, Inhabited

/-- Something that is read from a document, or the fault that stops it. -/
abbrev Scan (α : Type) := StateT Cursor (Except Fault) α

namespace Scan

def rest : Scan (List Char) := return (← get).rest

def offset : Scan Nat := return (← get).offset

def peek : Scan (Option Char) := return (← get).rest.head?

def skip (n : Nat) : Scan Unit :=
  modify fun s =>
    ⟨s.rest.drop n, (s.rest.take n).foldl (fun offset c => offset + c.utf8Size) s.offset⟩

/-- Stops at the next character. -/
def fail {α : Type} (message : String) : Scan α := do
  let s ← get
  let size := (s.rest.head?.map Char.utf8Size).getD 0
  throw ⟨⟨s.offset, s.offset + size⟩, message⟩

/-- Stops at a place passed before. -/
def failAt {α : Type} (start : Nat) (message : String) : Scan α :=
  throw ⟨⟨start, start + 1⟩, message⟩

def takeWhile (p : Char → Bool) : Scan (List Char) := do
  let taken := (← rest).takeWhile p
  skip taken.length
  return taken

def startsWith (text : String) : Scan Bool := return text.toList.isPrefixOf (← rest)

def accept (text : String) : Scan Bool := do
  if ← startsWith text then
    skip text.length
    return true
  else return false

def blanks : Scan Unit := discard (takeWhile fun c => c == ' ' || c == '\t')

def isCommentChar (c : Char) : Bool := c == '\t' || (' ' ≤ c && c != '\x7f')

def comment : Scan Unit := do
  if ← accept "#" then discard (takeWhile isCommentChar)

def newline : Scan Bool := do
  if ← accept "\n" then return true else accept "\r\n"

def expectedLineEnd : String := "expected newline, \x60#\x60"

def lineEnd : Scan Unit := do
  blanks
  comment
  if (← rest).isEmpty then return ()
  if !(← newline) then fail expectedLineEnd

/-- Passes over blanks, comments and line ends, at most `fuel` lines. -/
def gapLines : (fuel : Nat) → Scan Unit
  | 0 => pure ()
  | fuel + 1 => do
    blanks
    comment
    if ← newline then gapLines fuel

def gap : Scan Unit := do gapLines ((← rest).length + 1)

def invalidEscape : String :=
  "invalid escape sequence\nexpected \x60b\x60, \x60f\x60, \x60n\x60, \x60r\x60, \x60t\x60, " ++
    "\x60u\x60, \x60U\x60, \x60\\\x60, \x60\"\x60"

/-- Reads the number of a character in so many hexadecimal digits. -/
def codePoint (count : Nat) : Scan Char := do
  let digits := (← rest).take count
  match digits.mapM Text.hexValue with
  | none =>
    skip (digits.takeWhile Text.isHexDigit).length
    fail ("invalid unicode " ++ toString count ++ "-digit hex code")
  | some values =>
    if values.length < count then
      skip values.length
      fail ("invalid unicode " ++ toString count ++ "-digit hex code")
    else
      let n := values.foldl (fun n d => 16 * n + d) 0
      if h : n.isValidChar then
        skip count
        return Char.ofNatAux n h
      else fail ("invalid unicode " ++ toString count ++ "-digit hex code\nvalue is out of range")

/-- Reads the rest of an escape sequence behind its backslash. -/
def escape : Scan Char := do
  match ← peek with
  | some 'b' => skip 1; return '\x08'
  | some 't' => skip 1; return '\t'
  | some 'n' => skip 1; return '\n'
  | some 'f' => skip 1; return '\x0c'
  | some 'r' => skip 1; return '\r'
  | some '"' => skip 1; return '"'
  | some '\\' => skip 1; return '\\'
  | some 'u' => skip 1; codePoint 4
  | some 'U' => skip 1; codePoint 8
  | _ => fail invalidEscape

/-- Reads the rest of a text behind its quotation mark. -/
def basicRest : (fuel : Nat) → (before : List Char) → Scan String
  | 0, _ => fail "invalid basic string"
  | fuel + 1, before => do
    match ← peek with
    | some '"' => skip 1; return String.ofList before.reverse
    | some '\\' => skip 1; basicRest fuel ((← escape) :: before)
    | some c =>
      if isCommentChar c then do
        skip 1
        basicRest fuel (c :: before)
      else fail "invalid basic string"
    | none => fail "invalid basic string"

/-- Reads the rest of a text behind its apostrophe. -/
def plainRest : Scan String := do
  let inside ← takeWhile fun c => c != '\'' && isCommentChar c
  if ← accept "'" then return String.ofList inside else fail "invalid literal string"

/-- Whether the rest is a line end behind blanks. -/
def isLineEnd (rest : List Char) : Bool :=
  match rest.dropWhile fun c => c == ' ' || c == '\t' with
  | '\n' :: _ => true
  | '\r' :: '\n' :: _ => true
  | _ => false

/-- The number of marks that end a long text, and of those that belong to it. -/
def closing (mark : Char) (rest : List Char) : Option Nat :=
  let run := (rest.takeWhile (· == mark)).length
  if run < 3 then none else some (min (run - 3) 2)

/-- Reads the rest of a long text behind its quotation marks. -/
def longBasicRest : (fuel : Nat) → (before : List Char) → Scan String
  | 0, _ => fail "invalid multiline basic string"
  | fuel + 1, before => do
    let rest ← rest
    match closing '"' rest with
    | some inside =>
      skip (inside + 3)
      return String.ofList (List.replicate inside '"' ++ before).reverse
    | none =>
      match rest with
      | '\\' :: next =>
        skip 1
        if isLineEnd next then do
          discard (takeWhile fun c => c == ' ' || c == '\t' || c == '\n' || c == '\r')
          longBasicRest fuel before
        else longBasicRest fuel ((← escape) :: before)
      | '\r' :: '\n' :: _ => skip 2; longBasicRest fuel ('\n' :: before)
      | c :: _ =>
        if isCommentChar c || c == '\n' then do
          skip 1
          longBasicRest fuel (c :: before)
        else fail "invalid multiline basic string"
      | [] => fail "invalid multiline basic string"

/-- Reads the rest of a long text behind its apostrophes. -/
def longPlainRest : (fuel : Nat) → (before : List Char) → Scan String
  | 0, _ => fail "invalid multiline literal string"
  | fuel + 1, before => do
    let rest ← rest
    match closing '\'' rest with
    | some inside =>
      skip (inside + 3)
      return String.ofList (List.replicate inside '\'' ++ before).reverse
    | none =>
      match rest with
      | '\r' :: '\n' :: _ => skip 2; longPlainRest fuel ('\n' :: before)
      | c :: _ =>
        if isCommentChar c || c == '\n' then do
          skip 1
          longPlainRest fuel (c :: before)
        else fail "invalid multiline literal string"
      | [] => fail "invalid multiline literal string"

def quoted : Scan String := do
  let fuel := (← rest).length + 1
  if ← accept "\"\"\"" then do
    discard newline
    longBasicRest fuel []
  else if ← accept "'''" then do
    discard newline
    longPlainRest fuel []
  else if ← accept "\"" then basicRest fuel []
  else do
    skip 1
    plainRest

def isKeyChar (c : Char) : Bool := c.isAlphanum || c == '-' || c == '_'

def keyPart : Scan Key := do
  let start ← offset
  let name ← match ← peek with
    | some '"' => do
      let fuel := (← rest).length + 1
      skip 1
      basicRest fuel []
    | some '\'' => do
      skip 1
      plainRest
    | _ => do
      let name ← takeWhile isKeyChar
      if name.isEmpty then fail "invalid key" else pure (String.ofList name)
  return ⟨name, ⟨start, ← offset⟩⟩

/-- Whether a part of a key begins behind a dot and blanks. -/
def continues (rest : List Char) : Bool :=
  match rest with
  | '.' :: rest =>
    match rest.dropWhile fun c => c == ' ' || c == '\t' with
    | c :: _ => isKeyChar c || c == '"' || c == '\''
    | [] => false
  | _ => false

/-- Reads the parts of a dotted key behind its first ones. -/
def keyParts : (fuel : Nat) → (before : List Key) → Scan (List Key)
  | 0, before => return before.reverse
  | fuel + 1, before => do
    if continues (← rest) then
      skip 1
      blanks
      let part ← keyPart
      blanks
      keyParts fuel (part :: before)
    else return before.reverse

def key : Scan (List Key) := do
  blanks
  let part ← keyPart
  blanks
  keyParts ((← rest).length) [part]

end Scan

end CallAtlas.Toml
