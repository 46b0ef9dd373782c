import CallAtlas.Json.Reader
import CallAtlas.Decimal.Shortest
import CallAtlas.Text.Quoted
/-!
# Decoding JSON documents

Readers for texts, lists, maps and records, and the wording of their complaints. Members that a
record does not know are passed over, but must be JSON all the same.
-/

namespace CallAtlas.Json

open Read

/-! ### Complaints -/

def Unexpected.message : Unexpected → String
  | null => "null"
  | boolean b => "boolean \x60" ++ (if b then "true" else "false") ++ "\x60"
  | integer n => "integer \x60" ++ toString n ++ "\x60"
  | float text => "floating point \x60" ++ text ++ "\x60"
  | string text => "string " ++ Text.quoted text
  | sequence => "sequence"
  | map => "map"

def Cause.message : Cause → String
  | endInList => "EOF while parsing a list"
  | endInObject => "EOF while parsing an object"
  | endInString => "EOF while parsing a string"
  | endInValue => "EOF while parsing a value"
  | expectedColon => "expected \x60:\x60"
  | expectedCommaInList => "expected \x60,\x60 or \x60]\x60"
  | expectedCommaInObject => "expected \x60,\x60 or \x60\x7d\x60"
  | expectedIdent => "expected ident"
  | expectedValue => "expected value"
  | invalidEscape => "invalid escape"
  | invalidNumber => "invalid number"
  | numberOutOfRange => "number out of range"
  | controlCharacter => "control character (\\u0000-\\u001F) found while parsing a string"
  | keyMustBeString => "key must be a string"
  | loneSurrogate => "lone leading surrogate in hex escape"
  | unfinishedEscape => "unexpected end of hex escape"
  | trailingComma => "trailing comma"
  | trailingCharacters => "trailing characters"
  | invalidType found expected => "invalid type: " ++ found.message ++ ", expected " ++ expected
  | invalidLength n expected => "invalid length " ++ toString n ++ ", expected " ++ expected
  | missingField name => "missing field \x60" ++ name ++ "\x60"
  | duplicateField name => "duplicate field \x60" ++ name ++ "\x60"

def Failure.message (e : Failure) : String :=
  match e.position with
  | none => e.cause.message
  | some p =>
    e.cause.message ++ " at line " ++ toString p.line ++ " column " ++ toString p.column

/-! ### Numbers in complaints -/

/-- Takes digits into a number for as long as it stays below `2^64`, and counts the others. -/
def takeDigits : (digits : List Nat) → (n dropped : Nat) → Nat × Nat
  | [], n, dropped => (n, dropped)
  | d :: ds, n, dropped =>
    if dropped = 0 && 10 * n + d < UInt64.size then takeDigits ds (10 * n + d) 0
    else takeDigits ds n (dropped + 1)

/-- Scales a double by a power of ten; `none` where it leaves the range of doubles. -/
def scaleByTens : (fuel : Nat) → Float → Int → Option Float
  | 0, x, _ => some x
  | fuel + 1, x, e =>
    if e.natAbs ≤ 308 then
      let power := Float.ofScientific 1 false e.natAbs
      if 0 ≤ e then
        let y := x * power
        if y.isInf then none else some y
      else some (x / power)
    else if x == 0.0 then some x
    else if 0 ≤ e then none
    else scaleByTens fuel (x / Float.ofScientific 1 false 308) (e + 308)

/-- What a complaint calls a number. -/
def NumberParts.unexpected (p : NumberParts) (negative : Bool) : Option Unexpected :=
  let (whole, droppedWhole) := takeDigits p.whole 0 0
  if p.fraction.isNone && p.exponent.isNone && droppedWhole = 0 then
    if !negative then some (.integer whole)
    else if 0 < whole && whole ≤ 0x8000000000000000 then some (.integer (-whole))
    else some (.float (Decimal.text (-whole.toUInt64.toFloat)))
  else
    let fraction := p.fraction.getD []
    let (significand, droppedFraction) := takeDigits fraction whole 0
    let taken : Int := fraction.length - droppedFraction
    let exponent := match p.exponent with
      | none => 0
      | some (down, digits) => if down then -(ofDigits digits : Int) else ofDigits digits
    let x := scaleByTens 20 significand.toUInt64.toFloat (droppedWhole - taken + exponent)
    x.map fun x => .float (Decimal.text (if negative then -x else x))

/-! ### Values -/

/-- Complains about the value at hand, of whatever type it is. -/
def failType {α : Type} (expected : String) : Read α := do
  let found (u : Unexpected) : Read α := located (fail (.invalidType u expected))
  let number (negative : Bool) : Read α := do
    match (← readNumber .endInValue).unexpected negative with
    | some u => found u
    | none => failHere .numberOutOfRange
  match ← peek with
  | some 'n' => do
    skip
    expectWord ['u', 'l', 'l']
    found .null
  | some 't' => do
    skip
    expectWord ['r', 'u', 'e']
    found (.boolean true)
  | some 'f' => do
    skip
    expectWord ['a', 'l', 's', 'e']
    found (.boolean false)
  | some '-' => do
    skip
    number true
  | some '"' => do
    skip
    found (.string (← readText ((← remaining) + 1) []))
  | some '[' => found .sequence
  | some '\x7b' => found .map
  | some c => if c.isDigit then number false else failNext .expectedValue
  | none => failNext .expectedValue

/-- The first character of a value, without moving past it. -/
def peekValue : Read Char := do
  match ← peekToken with
  | some c => pure c
  | none => failNext .endInValue

def readString : Read String := do
  if (← peekValue) == '"' then
    skip
    readText ((← remaining) + 1) []
  else failType "a string"

/-- Whether a list goes on; `first` before its first item. -/
def moreItems (first : Bool) : Read Bool := do
  match ← peekToken with
  | none => failNext .endInList
  | some ']' => pure false
  | some c =>
    -- the first item has no comma before it
    if first then pure true
    else if c == ',' then do
      skip
      match ← peekToken with
      | some ']' => failNext .trailingComma
      | some _ => pure true
      | none => failNext .endInValue
    else failNext .expectedCommaInList

def endList : Read Unit := do
  match ← peekToken with
  | some ']' => skip
  | some ',' => do
    skip
    match ← peekToken with
    | some ']' => failNext .trailingComma
    | _ => failNext .trailingCharacters
  | some _ => failNext .trailingCharacters
  | none => failNext .endInList

/-- Reads the items of a list behind its bracket. -/
def readItems {α : Type} (item : Read α) : (fuel : Nat) → (before : List α) → Read (List α)
  | 0, before => pure before.reverse
  | fuel + 1, before => do
    if ← moreItems before.isEmpty then readItems item fuel ((← item) :: before)
    else pure before.reverse

def readList {α : Type} (item : Read α) : Read (List α) := do
  if (← peekValue) == '[' then
    skip
    located (thenEnd (readItems item ((← remaining) + 1) []) endList)
  else failType "a sequence"

/-- Whether an object goes on with a key; `first` before its first member. -/
def moreMembers (first : Bool) : Read Bool := do
  let atKey (c : Option Char) : Read Bool :=
    match c with
    | some '"' => pure true
    | some '\x7d' => failNext .trailingComma
    | some _ => failNext .keyMustBeString
    | none => failNext .endInValue
  match ← peekToken with
  | none => failNext .endInObject
  | some '\x7d' => pure false
  | some c =>
    if first then atKey (some c)
    else if c == ',' then do
      skip
      atKey (← peekToken)
    else failNext .expectedCommaInObject

def readColon : Read Unit := do
  match ← peekToken with
  | some ':' => skip
  | some _ => failNext .expectedColon
  | none => failNext .endInObject

def endObject : Read Unit := do
  match ← peekToken with
  | some '\x7d' => skip
  | some ',' => failNext .trailingComma
  | some _ => failNext .trailingCharacters
  | none => failNext .endInObject

/-- Reads the members of an object behind its brace; `member` reads the value of a key and takes it
into what has been read. -/
def readMembers {σ : Type} (member : σ → String → Read σ) :
    (fuel : Nat) → (first : Bool) → σ → Read σ
  | 0, _, s => pure s
  | fuel + 1, first, s => do
    if ← moreMembers first then
      skip
      let key ← readText ((← remaining) + 1) []
      readMembers member fuel false (← member s key)
    else pure s

/-- Reads the value of a key and puts both before the pairs read so far. -/
def readPair {α : Type} (value : Read α) (pairs : List (String × α)) (key : String) :
    Read (List (String × α)) := do
  readColon
  pure ((key, ← value) :: pairs)

/-- Reads a map; the pairs stand in the order of the text. -/
def readMap {α : Type} (value : Read α) : Read (List (String × α)) := do
  if (← peekValue) == '\x7b' then
    skip
    let pairs ←
      located (thenEnd (readMembers (readPair value) ((← remaining) + 1) true []) endObject)
    pure pairs.reverse
  else failType "a map"

/-! ### Passing over values -/

/-- Passes over the end of a value and of the brackets that end there. `enclosing` holds the
brackets still open, innermost first. Gives the brackets that stay open. -/
def ignoreEnds : (fuel : Nat) → (mayComma : Bool) → (enclosing : List Char) → Read (List Char)
  | 0, _, enclosing => pure enclosing
  | _ + 1, _, [] => pure []
  | fuel + 1, mayComma, bracket :: outer => do
    let list := bracket == '['
    match ← peekToken with
    | none => failNext (if list then .endInList else .endInObject)
    | some c =>
      if c == ',' && mayComma then do
        skip
        pure (bracket :: outer)
      else if c == (if list then ']' else '\x7d') then do
        skip
        ignoreEnds fuel true outer
      else if mayComma then
        failNext (if list then .expectedCommaInList else .expectedCommaInObject)
      else pure (bracket :: outer)

def ignoreKey : Read Unit := do
  match ← peekToken with
  | some '"' => do
    skip
    ignoreText ((← remaining) + 1)
    readColon
  | some _ => failNext .keyMustBeString
  | none => failNext .endInObject

/-- Passes over a value without its inside, and tells whether it is a bracket that opens. -/
def ignoreHead : Read Bool := do
  match ← peekValue with
  | 'n' => do
    skip
    expectWord ['u', 'l', 'l']
    pure false
  | 't' => do
    skip
    expectWord ['r', 'u', 'e']
    pure false
  | 'f' => do
    skip
    expectWord ['a', 'l', 's', 'e']
    pure false
  | '-' => do
    skip
    let _ ← readNumber .invalidNumber
    pure false
  | '"' => do
    skip
    ignoreText ((← remaining) + 1)
    pure false
  | '[' | '\x7b' => do
    skip
    pure true
  | c =>
    if c.isDigit then do
      let _ ← readNumber .invalidNumber
      pure false
    else failNext .expectedValue

/-- Passes over the value at hand and over what follows it in the open brackets. -/
def ignoreFrom : (fuel : Nat) → (enclosing : List Char) → Read Unit
  | 0, _ => pure ()
  | fuel + 1, enclosing => do
    let c ← peekValue
    let opened ← ignoreHead
    let opening := if opened then c :: enclosing else enclosing
    match ← ignoreEnds (fuel + 1) (!opened) opening with
    | [] => pure ()
    | bracket :: outer => do
      if bracket == '\x7b' then ignoreKey
      ignoreFrom fuel (bracket :: outer)

def ignoreValue : Read Unit := do
  ignoreFrom ((← remaining) + 1) []

/-- Reads by a reader, behind which only blanks may stand. -/
def readWhole {α : Type} (p : Read α) : Read α := do
  let a ← p
  match ← peekToken with
  | some _ => failNext .trailingCharacters
  | none => pure a

/-- Reads a whole text by a reader. -/
def decode {α : Type} (p : Read α) (text : String) : Except Failure α :=
  (readWhole p ⟨text.toList, ⟨1, 0⟩⟩).1

end CallAtlas.Json
