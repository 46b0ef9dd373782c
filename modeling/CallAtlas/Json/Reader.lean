import CallAtlas.Text.Hexadecimal
/-!
# Reading JSON

A reader takes a text from left to right and knows the line and column it has reached; columns count
the bytes of UTF-8. Documents are read directly as what they are to be, so that a reader can say what
it expected and what it found instead.
-/

namespace CallAtlas.Json

inductive Unexpected where
  | null
  | boolean (value : Bool)
  | integer (value : Int)
  /-- A number with a fraction or an exponent, as it is reported. -/
  | float (text : String)
  | string (text : String)
  | sequence
  | map
deriving DecidableEq, Repr

inductive Cause where
  | endInList
  | endInObject
  | endInString
  | endInValue
  | expectedColon
  | expectedCommaInList
  | expectedCommaInObject
  | expectedIdent
  | expectedValue
  | invalidEscape
  | invalidNumber
  | numberOutOfRange
  | controlCharacter
  | keyMustBeString
  | loneSurrogate
  | unfinishedEscape
  | trailingComma
  | trailingCharacters
  | invalidType (found : Unexpected) (expected : String)
  | invalidLength (length : Nat) (expected : String)
  | missingField (name : String)
  | duplicateField (name : String)
deriving DecidableEq, Repr

structure Position where
  /-- The line, counted from 1. -/
  line : Nat
  /-- The number of bytes of the line up to the place. -/
  column : Nat
deriving DecidableEq, Repr

/-- A text was not accepted. The place is missing while it is still to be determined. -/
structure Failure where
  cause : Cause
  position : Option Position
deriving DecidableEq, Repr

structure Input where
  rest : List Char
  position : Position := ⟨1, 0⟩

def Position.after (p : Position) (c : Char) : Position :=
  if c == '\n' then ⟨p.line + 1, 0⟩ else ⟨p.line, p.column + c.utf8Size⟩

def Position.peek (p : Position) : List Char → Position
  | [] => p
  | '\n' :: _ => ⟨p.line + 1, 0⟩
  | _ => ⟨p.line, p.column + 1⟩

/-- The result of reading, with the position reached in either case. -/
abbrev Read (α : Type) := Input → Except Failure α × Input

namespace Read

variable {α β : Type}

protected def pure (a : α) : Read α := fun s => (.ok a, s)

protected def bind (p : Read α) (f : α → Read β) : Read β := fun s =>
  match p s with
  | (.ok a, s) => f a s
  | (.error e, s) => (.error e, s)

instance : Monad Read where
  pure := Read.pure
  bind := Read.bind

/-- Gives up without naming a place. -/
def fail (cause : Cause) : Read α := fun s => (.error ⟨cause, none⟩, s)

/-- Gives up at the place reached. -/
def failHere (cause : Cause) : Read α := fun s => (.error ⟨cause, some s.position⟩, s)

/-- Gives up at the next character. -/
def failNext (cause : Cause) : Read α := fun s =>
  (.error ⟨cause, some (s.position.peek s.rest)⟩, s)

/-- Names the place reached for a failure that names none. -/
def located (p : Read α) : Read α := fun s =>
  match p s with
  | (.error ⟨cause, none⟩, s) => (.error ⟨cause, some s.position⟩, s)
  | r => r

/-- Reads by `p` and then, whatever came of it, by `q`; the failure of `p` counts first. -/
def thenEnd (p : Read α) (q : Read Unit) : Read α := fun s =>
  let (a, s) := p s
  let (b, s) := q s
  match a, b with
  | .ok a, .ok _ => (.ok a, s)
  | .error e, _ => (.error e, s)
  | _, .error e => (.error e, s)

def peek : Read (Option Char) := fun s => (.ok s.rest.head?, s)

def next : Read (Option Char) := fun s =>
  match s.rest with
  | [] => (.ok none, s)
  | c :: rest => (.ok (some c), ⟨rest, s.position.after c⟩)

def skip : Read Unit := do let _ ← next

def remaining : Read Nat := fun s => (.ok s.rest.length, s)

end Read

open Read

/-- Passes over blanks and gives the next character, without moving past it. -/
def peekToken : Read (Option Char) := fun s =>
  let rec go : List Char → Position → Input
    | c :: rest, p =>
      if c == ' ' || c == '\n' || c == '\t' || c == '\r' then go rest (p.after c)
      else ⟨c :: rest, p⟩
    | [], p => ⟨[], p⟩
  let s := go s.rest s.position
  (.ok s.rest.head?, s)

/-- Reads the rest of a word whose first letter has been read. -/
def expectWord : List Char → Read Unit
  | [] => pure ()
  | c :: cs => do
    match ← peek with
    | none => failHere .endInValue
    | some d =>
      if c == d then do
        skip
        expectWord cs
      else failNext .expectedIdent

/-! ### Numbers -/

/-- Reads digits and gives their values. -/
def readDigits : (fuel : Nat) → (before : List Nat) → Read (List Nat)
  | 0, before => pure before.reverse
  | fuel + 1, before => do
    match ← peek with
    | some c =>
      if c.isDigit then
        skip
        readDigits fuel ((c.toNat - '0'.toNat) :: before)
      else pure before.reverse
    | none => pure before.reverse

def ofDigits (digits : List Nat) : Nat := digits.foldl (fun n d => 10 * n + d) 0

structure NumberParts where
  whole : List Nat
  /-- The digits behind the point, if there is one. -/
  fraction : Option (List Nat)
  /-- The exponent with its sign, if there is one. -/
  exponent : Option (Bool × List Nat)

/-- Reads a digit that must be there; `atEnd` is the complaint about the end of the text. -/
def readDigit (atEnd : Cause) : Read Nat := do
  match ← peek with
  | none => failHere atEnd
  | some c =>
    if c.isDigit then do
      skip
      pure (c.toNat - '0'.toNat)
    else failNext .invalidNumber

/-- Reads a number without its sign; `atEnd` is the complaint about a text that ends in it. -/
def readNumber (atEnd : Cause) : Read NumberParts := do
  let fuel ← remaining
  let first ← readDigit atEnd
  let whole ←
    if first = 0 then
      match ← peek with
      | some c => if c.isDigit then failNext .invalidNumber else pure [0]
      | none => pure [0]
    else readDigits fuel [first]
  let fraction ←
    match ← peek with
    | some '.' => do
      skip
      pure (some (← readDigits fuel [← readDigit atEnd]))
    | _ => pure none
  let exponent ←
    match ← peek with
    | some c =>
      if c == 'e' || c == 'E' then do
        skip
        let negative ←
          match ← peek with
          | some '+' => do skip; pure false
          | some '-' => do skip; pure true
          | _ => pure false
        pure (some (negative, ← readDigits fuel [← readDigit atEnd]))
      else pure none
    | none => pure none
  return ⟨whole, fraction, exponent⟩

/-! ### Texts -/

/-- The place `bytes` bytes further, and `none` if the text ends before. -/
def passBytes : (bytes : Nat) → List Char → Position → Option Input
  | 0, rest, p => some ⟨rest, p⟩
  | _ + 1, [], _ => none
  | n + 1, c :: rest, p =>
    if n + 1 < c.utf8Size then some ⟨rest, ⟨p.line, p.column + n + 1⟩⟩
    else passBytes (n + 1 - c.utf8Size) rest (p.after c)
termination_by n => n
decreasing_by have := c.utf8Size_pos; omega

/-- Reads the four digits of an escaped code unit. -/
def readCodeUnit : Read Nat := fun s =>
  match passBytes 4 s.rest s.position with
  | none =>
    let s := ⟨[], s.rest.foldl Position.after s.position⟩
    (.error ⟨.endInString, some s.position⟩, s)
  | some t =>
    match (s.rest.take 4).mapM Text.hexValue with
    | some digits => (.ok (digits.foldl (fun n d => 16 * n + d) 0), t)
    | none => (.error ⟨.invalidEscape, some t.position⟩, t)

def peekEscaped : Read Char := do
  match ← peek with
  | some c => pure c
  | none => failHere .endInString

/-- Reads the given character of a second escape sequence. -/
def expectEscaped (c : Char) : Read Unit := do
  if c == (← peekEscaped) then skip else failNext .unfinishedEscape

/-- The character that a letter behind a backslash stands for. -/
def plainEscape : Char → Option Char
  | '"' => some '"'
  | '\\' => some '\\'
  | '/' => some '/'
  | 'b' => some '\x08'
  | 'f' => some '\x0c'
  | 'n' => some '\n'
  | 'r' => some '\r'
  | 't' => some '\t'
  | _ => none

/-- Reads what follows a backslash. Code units of a surrogate pair are joined. -/
def readEscape : Read Char := do
  let c ← peekEscaped
  match plainEscape c with
  | some d => do
    skip
    pure d
  | none =>
    if c != 'u' then failNext .invalidEscape
    else do
    skip
    let high ← readCodeUnit
    if 0xDC00 ≤ high && high ≤ 0xDFFF then failHere .loneSurrogate
    -- outside of the surrogates one code unit is a character
    else if high < 0xD800 || 0xDBFF < high then pure (Char.ofNat high)
    else do
      expectEscaped '\\'
      expectEscaped 'u'
      let low ← readCodeUnit
      if low < 0xDC00 || 0xDFFF < low then failHere .loneSurrogate
      else pure (Char.ofNat ((high - 0xD800) * 0x400 + (low - 0xDC00) + 0x10000))

/-- Reads the rest of a text behind its opening quotation mark. -/
def readText : (fuel : Nat) → (before : List Char) → Read String
  | 0, _ => failHere .endInString
  | fuel + 1, before => do
    match ← peek with
    | none => failHere .endInString
    | some '"' => do
      skip
      pure (String.ofList before.reverse)
    | some '\\' => do
      skip
      readText fuel ((← readEscape) :: before)
    | some c => do
      skip
      if c.toNat < 0x20 then failHere .controlCharacter else readText fuel (c :: before)

def ignoreEscape : Read Unit := do
  let c ← peekEscaped
  if c == 'u' then do
    skip
    let _ ← readCodeUnit
  else if (plainEscape c).isSome then skip
  else failNext .invalidEscape

/-- Passes over the rest of a text behind its opening quotation mark. -/
def ignoreText : (fuel : Nat) → Read Unit
  | 0 => failHere .endInString
  | fuel + 1 => do
    match ← peek with
    | none => failHere .endInString
    | some '"' => skip
    | some '\\' => do
      skip
      ignoreEscape
      ignoreText fuel
    | some c => if c.toNat < 0x20 then failHere .controlCharacter else do
      skip
      ignoreText fuel

end CallAtlas.Json
