import CallAtlas.Python.Scan.Basic
import CallAtlas.Text.Hexadecimal
/-!
# Literals

How far numbers, escape sequences and the plain text of string literals reach. All functions give
the length of the match at the head of a text.
-/

namespace CallAtlas.Python

/-! ### Numbers -/

/-- The length of decimal digits in which single underscores may follow a digit. -/
def digitsLength : (text : List Char) → (afterDigit : Bool) → Nat
  | [], _ => 0
  | c :: rest, afterDigit =>
    if c.isDigit then digitsLength rest true + 1
    else if c == '_' && afterDigit then digitsLength rest false + 1
    else 0

/-- The length of digits of a class in which single underscores may precede a digit. -/
def radixLength (digit : Char → Bool) : List Char → Nat
  | [] => 0
  | [c] => if digit c then 1 else 0
  | c :: d :: rest =>
    if digit c then radixLength digit (d :: rest) + 1
    else if c == '_' && digit d then radixLength digit (d :: rest) + 1
    else 0

/-- One of the given characters at the head of a text, or nothing. -/
def optionalLength (chars : List Char) : List Char → Nat
  | c :: _ => if chars.contains c then 1 else 0
  | [] => 0

/-- The length of an integer literal; 0 where there is none. -/
def integerLength (text : List Char) : Nat :=
  let decimal := digitsLength text false
  let decimal := if decimal = 0 then 0
    else decimal + optionalLength ['L', 'l', 'j', 'J'] (text.drop decimal)
  let radix (digit : Char → Bool) (body : List Char) : Nat :=
    let n := radixLength digit body
    if n = 0 then decimal else n + 2 + optionalLength ['L', 'l'] (body.drop n)
  match text with
  | '0' :: 'x' :: body | '0' :: 'X' :: body => radix Text.isHexDigit body
  | '0' :: 'o' :: body | '0' :: 'O' :: body => radix (fun c => '0' ≤ c && c ≤ '7') body
  | '0' :: 'b' :: body | '0' :: 'B' :: body => radix (fun c => c == '0' || c == '1') body
  | _ => decimal

/-- The length of an exponent; 0 where there is none. -/
def exponentLength : List Char → Nat
  | c :: rest =>
    if c == 'e' || c == 'E' then
      let sign := optionalLength ['+', '-'] rest
      let digits := digitsLength (rest.drop sign) false
      if digits = 0 then 0 else digits + sign + 1
    else 0
  | [] => 0

/-- The length of a floating-point literal; 0 where there is none. -/
def floatLength (text : List Char) : Nat :=
  let whole := digitsLength text false
  let body := match text.drop whole with
    | '.' :: rest =>
      let fraction := digitsLength rest false
      if whole = 0 && fraction = 0 then 0
      else whole + 1 + fraction + exponentLength (rest.drop fraction)
    | rest =>
      let exponent := exponentLength rest
      if whole = 0 || exponent = 0 then 0 else whole + exponent
  if body = 0 then 0 else body + optionalLength ['j', 'J'] (text.drop body)

/-- The kind and length of the number at the head of a text. -/
def numberLength (text : List Char) : Option (Kind × Nat) :=
  let i := integerLength text
  let f := floatLength text
  if i < f then some (.float, f) else if 0 < i then some (.integer, i) else none

/-! ### Strings -/

/-- Whether the first `n` characters of a text exist and belong to a class. -/
def allWithin (p : Char → Bool) (n : Nat) (text : List Char) : Bool :=
  (text.take n).length == n && (text.take n).all p

/-- The length of an escape sequence; `none` for a backslash that escapes nothing. -/
def escapeLength : List Char → Option Nat
  | '\\' :: c :: rest =>
    if c == 'u' then if allWithin Text.isHexDigit 4 rest then some 6 else none
    else if c == 'U' then if allWithin Text.isHexDigit 8 rest then some 10 else none
    else if c == 'x' then if allWithin Text.isHexDigit 2 rest then some 4 else none
    else if c.isDigit then some (2 + ((rest.take 2).takeWhile Char.isDigit).length)
    else if c == '\n' then some 2
    else if c == '\r' then (match rest with
      | '\n' :: _ => some 3
      | _ => none)
    else if ['\'', '"', 'a', 'b', 'f', 'r', 'n', 't', 'v', '\\'].contains c then some 2
    else if c == 'N' then (match rest with
      | '\x7b' :: name =>
        let n := (name.takeWhile (· != '\x7d')).length
        if 0 < n && n < name.length then some (n + 4) else none
      | _ => none)
    else none
  | _ => none

/-- What follows inside a string literal. -/
inductive Content where
  /-- Plain text of the given length. -/
  | text (length : Nat)
  /-- The closing delimiter of the given length. -/
  | close (length : Nat)

/-- The number of characters that a backslash of a raw literal takes along. -/
def rawLength (q : Quote) (text : List Char) : Nat :=
  let quoted := match text with
    | c :: _ => if c == q.mark || c == '\\' then 1 else 0
    | [] => 0
  match text.drop quoted with
  | '\r' :: '\n' :: _ => quoted + 2
  | '\r' :: _ => quoted + 1
  | '\n' :: _ => quoted + 1
  | _ => quoted

/-- The plain text or the closing delimiter at the head of `text`, where `n` characters of plain
text have been passed and `some` tells whether they count as content. The answer is `none` at a
brace or an escape sequence, and at a line end that a literal may not contain. -/
def contentAfter (q : Quote) (text : List Char) (n : Nat) (seen : Bool) : Option Content :=
  let pending := if seen then some (Content.text n) else none
  match text with
  | [] => none
  | c :: rest =>
    if c == '\x00' then none
    else if (c == '\x7b' || c == '\x7d') && q.format then pending
    else if c == '\\' then
      if q.raw then contentAfter q (rest.drop (rawLength q rest)) (n + 1 + rawLength q rest) seen
      else if q.bytes then
        match rest with
        | d :: rest' =>
          if d == 'N' || d == 'u' || d == 'U' then
            contentAfter q (rest'.drop 1) (n + 2 + (rest'.take 1).length) true
          else pending
        | [] => pending
      else pending
    else if c == q.mark then
      if q.triple then
        match rest with
        | d :: rest' =>
          if d == q.mark then
            match rest' with
            | e :: _ =>
              if e == q.mark then if seen then pending else some (.close (n + 3))
              else some (.text (n + 2))
            | [] => some (.text (n + 2))
          else some (.text (n + 1))
        | [] => some (.text (n + 1))
      else if seen then pending else some (.close (n + 1))
    else if c == '\n' && seen && !q.triple then none
    else contentAfter q rest (n + 1) true
termination_by text.length
decreasing_by all_goals simp only [List.length_cons, List.length_drop]; omega

/-- What stands at the head of the text of an open string literal. -/
def content (q : Quote) (text : List Char) : Option Content := contentAfter q text 0 false

end CallAtlas.Python
