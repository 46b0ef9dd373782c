import CallAtlas.Decimal.Shortest
import CallAtlas.Toml.Scan
/-!
# TOML numbers and dates

Numbers may have underscores between digits, and integers may be written in other bases behind a
prefix. Dates and times are only checked, since nothing asks for their values.
-/

namespace CallAtlas.Toml.Scan

/-- Reads digits with single underscores between them, behind those before, latest first. -/
def digitsRest (isDigit : Char → Bool) : (fuel : Nat) → (before : List Char) → Scan (List Char)
  | 0, before => return before.reverse
  | fuel + 1, before => do
    match ← rest with
    | '_' :: next =>
      skip 1
      match next with
      | c :: _ =>
        if isDigit c then do
          skip 1
          digitsRest isDigit fuel (c :: before)
        else fail "expected digit"
      | [] => fail "expected digit"
    | c :: _ =>
      if isDigit c then do
        skip 1
        digitsRest isDigit fuel (c :: before)
      else return before.reverse
    | [] => return before.reverse

/-- Reads digits with single underscores between them, if a digit comes next. -/
def digits (isDigit : Char → Bool) : Scan (Option (List Char)) := do
  match ← rest with
  | c :: next =>
    if isDigit c then do
      skip 1
      return some (← digitsRest isDigit next.length [c])
    else return none
  | [] => return none

def ofDigits (base : Nat) (ds : List Char) : Nat :=
  ds.foldl (fun n c => base * n + (Text.hexValue c).getD 0) 0

def tooLarge (negative : Bool) : String :=
  if negative then "number too small to fit in target type"
  else "number too large to fit in target type"

/-- An integer of 64 bits with its sign. -/
def fitting (start : Nat) (n : Int) : Scan Value := do
  if n < -0x8000000000000000 || 0x8000000000000000 ≤ n then failAt start (tooLarge (n < 0)) else return .integer n

/-- Reads an integer of another base behind its prefix. -/
def prefixed (base : Nat) (name : String) (isDigit : Char → Bool) : Scan Value := do
  let start ← offset
  skip 2
  match ← digits isDigit with
  | some ds => fitting start (ofDigits base ds)
  | none => fail ("invalid " ++ name ++ " integer")

/-- Reads a sign, if one comes next; the answer is whether it is a minus. -/
def sign : Scan Bool := do
  if ← accept "-" then return true
  discard (accept "+")
  return false

/-- Reads the digits of a decimal integer: a zero stands alone. -/
def decimalDigits : Scan (Option (List Char)) := do
  match ← peek with
  | some '0' => skip 1; return some ['0']
  | _ => digits Char.isDigit

def requiredDigits : Scan (List Char) := do
  match ← digits Char.isDigit with
  | some ds => return ds
  | none => fail "invalid floating-point number\nexpected digit"

/-- The double of digits and a power of ten. -/
def toFloat (ds : List Char) (exponent : Int) : Float :=
  let n := ofDigits 10 ds
  let bound : Int := 400 + ds.length
  let e := max (-bound) (min exponent bound)
  if 0 ≤ e then Float.ofScientific n false e.toNat else Float.ofScientific n true (-e).toNat

/-- Reads the fraction and the exponent of a number; without either the number is an integer. -/
def numberRest (start : Nat) (negative : Bool) (whole : List Char) : Scan Value := do
  let fraction ← if ← accept "." then some <$> requiredDigits else pure none
  let exponent ←
    if ← accept "e" <||> accept "E" then do
      let negative ← sign
      let ds ← requiredDigits
      let n : Int := ofDigits 10 ds
      pure (some (if negative then -n else n))
    else pure none
  match fraction, exponent with
  | none, none =>
    let n : Int := ofDigits 10 whole
    fitting start (if negative then -n else n)
  | _, _ =>
    let behind := fraction.getD []
    let x := toFloat (whole ++ behind) (exponent.getD 0 - behind.length)
    if x.isInf then
      if negative then return .float "-inf.0" else failAt start "invalid floating-point number"
    else return .float (Decimal.positional (if negative then -x else x))

/-! ### Dates -/

/-- The number in the next so many characters, if all are digits. -/
def fixedDigits (count : Nat) (rest : List Char) : Option Nat :=
  let ds := rest.take count
  if ds.length = count && ds.all Char.isDigit then some (ofDigits 10 ds) else none

def invalidDate : String := "invalid date-time"

def dateOutOfRange : String := "invalid date-time\nvalue is out of range"

/-- Reads a number of so many digits within bounds. -/
def bounded (count low high : Nat) : Scan Nat := do
  match fixedDigits count (← rest) with
  | none => fail invalidDate
  | some n =>
    if low ≤ n && n ≤ high then do
      skip count
      return n
    else fail dateOutOfRange

def required (text : String) : Scan Unit := do
  if !(← accept text) then fail invalidDate

def daysIn (year month : Nat) : Nat :=
  if month == 2 then if year % 4 == 0 && (year % 100 != 0 || year % 400 == 0) then 29 else 28
  else if month == 4 || month == 6 || month == 9 || month == 11 then 30
  else 31

def date : Scan Unit := do
  let year ← bounded 4 0 9999
  required "-"
  let month ← bounded 2 1 12
  required "-"
  discard (bounded 2 1 (daysIn year month))

def time : Scan Unit := do
  discard (bounded 2 0 23)
  required ":"
  discard (bounded 2 0 59)
  required ":"
  discard (bounded 2 0 60)
  if ← accept "." then
    let fraction ← takeWhile Char.isDigit
    if fraction.isEmpty then fail invalidDate

/-- Reads the distance of a time from the universal one, if it comes next. -/
def timeOffset : Scan Unit := do
  if ← accept "Z" <||> accept "z" then return ()
  if ← accept "+" <||> accept "-" then
    discard (bounded 2 0 23)
    required ":"
    discard (bounded 2 0 59)

/-- Whether a time comes behind a date and a separator. -/
def timeFollows (rest : List Char) : Bool :=
  match rest with
  | c :: rest =>
    (c == 'T' || c == 't' || c == ' ') && (fixedDigits 2 rest).isSome &&
      rest[2]? == some ':'
  | [] => false

/-- Reads a date, a time or both, if one comes next. -/
def datetime : Scan Bool := do
  let rest ← rest
  if (fixedDigits 4 rest).isSome && rest[4]? == some '-' then do
    date
    if timeFollows (← Scan.rest) then do
      skip 1
      time
      timeOffset
    return true
  else if (fixedDigits 2 rest).isSome && rest[2]? == some ':' then do
    time
    return true
  else return false

/-- Reads a number or a date that begins with a sign or a digit; the answer is `none`, and nothing
is read, where there is none. -/
def number : Scan (Option Value) := do
  let before ← get
  let start := before.offset
  if ← datetime then return some .datetime
  let rest ← rest
  let special (negative : Bool) : Scan (Option Value) := do
    if ← accept "inf" then return some (.float (if negative then "-inf.0" else "inf.0"))
    if ← accept "nan" then return some (.float "NaN.0")
    set before
    return none
  match rest with
  | '0' :: 'x' :: _ => some <$> prefixed 16 "hexadecimal" Text.isHexDigit
  | '0' :: 'o' :: _ => some <$> prefixed 8 "octal" fun c => '0' ≤ c && c ≤ '7'
  | '0' :: 'b' :: _ => some <$> prefixed 2 "binary" fun c => c == '0' || c == '1'
  | _ =>
    let negative ← sign
    match ← decimalDigits with
    | some whole => some <$> numberRest start negative whole
    | none => special negative

end CallAtlas.Toml.Scan
