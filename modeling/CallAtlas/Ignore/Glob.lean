/-!
# Globs

Patterns for paths, matched byte by byte. A star stands for a run of bytes without separators, two
stars between separators for any directories, brackets for a class of bytes, and braces for one of
several patterns.
-/

namespace CallAtlas.Ignore

def separator : UInt8 := 47

/-- A part of a pattern. -/
inductive Token where
  /-- The byte itself. -/
  | byte (value : UInt8)
  /-- Any byte but a separator. -/
  | any
  /-- Any bytes but separators. -/
  | many
  /-- A byte in one of the ranges, or in none of them. -/
  | oneIn (negated : Bool) (ranges : List (UInt8 × UInt8))
  /-- The directories before a pattern, with the separator behind them. -/
  | above
  /-- The directories inside a pattern, with the separators around them. -/
  | between
  /-- Everything below the pattern so far. -/
  | inside
  /-- One of several patterns. -/
  | oneOf (branches : List (List Token))
deriving Repr, Inhabited

namespace Token

def isByte (value : UInt8) : Token → Bool
  | byte b => b == value
  | _ => false

def isAbove : Token → Bool
  | above => true
  | _ => false

end Token

abbrev Glob := List Token

namespace Glob

/-! ## Matching -/

/-- Whether `k` accepts what is left after some bytes without separators. -/
def afterMany (k : List UInt8 → Bool) : List UInt8 → Bool
  | [] => k []
  | b :: rest => k (b :: rest) || (b != separator && afterMany k rest)

/-- Whether `k` accepts what is left after some bytes of which the last is a separator. -/
def afterSeparator (k : List UInt8 → Bool) : List UInt8 → Bool
  | [] => false
  | b :: rest => (b == separator && k rest) || afterSeparator k rest

/-- Whether `k` accepts what is left after some bytes. -/
def afterAny (k : List UInt8 → Bool) : List UInt8 → Bool
  | [] => k []
  | b :: rest => k (b :: rest) || afterAny k rest

mutual
/-- Whether a part of a pattern matches some bytes such that `k` accepts what is left. -/
def matchToken (k : List UInt8 → Bool) : Token → List UInt8 → Bool
  | .byte value, path =>
    match path with
    | b :: rest => b == value && k rest
    | [] => false
  | .any, path =>
    match path with
    | b :: rest => b != separator && k rest
    | [] => false
  | .many, path => afterMany k path
  | .oneIn negated ranges, path =>
    match path with
    | b :: rest =>
      ((ranges.any fun (first, last) => first ≤ b && b ≤ last) != negated) && k rest
    | [] => false
  | .above, path => k path || afterSeparator k path
  | .between, path =>
    match path with
    | b :: rest => b == separator && (k rest || afterSeparator k rest)
    | [] => false
  | .inside, path =>
    match path with
    | b :: rest => b == separator && afterAny k rest
    | [] => false
  | .oneOf branches, path => matchBranches k branches path

/-- Whether a sequence of parts matches some bytes such that `k` accepts what is left. -/
def matchTokens (k : List UInt8 → Bool) : List Token → List UInt8 → Bool
  | [], path => k path
  | t :: ts, path => matchToken (matchTokens k ts) t path

/-- Whether one of several patterns matches some bytes such that `k` accepts what is left. -/
def matchBranches (k : List UInt8 → Bool) : List (List Token) → List UInt8 → Bool
  | [], _ => false
  | branch :: branches, path => matchTokens k branch path || matchBranches k branches path
end

/-- A pattern of single bytes. -/
def isLiteral (g : Glob) : Bool := g.all fun
  | .byte _ => true
  | _ => false

/-- Whether a pattern is looked up by the file name or the extension of a path: it ends in a dot
and is not a path written out. -/
def endsInNameWithDot (g : Glob) : Bool :=
  g.getLast?.any (·.isByte 46) &&
    !(isLiteral g ||
      (g.head?.any Token.isAbove && isLiteral (g.drop 1) && g.any (·.isByte separator)))

/-- Whether a pattern matches a path. Two stars alone match everything. A path that ends in a dot
has no file name that could be looked up. -/
def isMatch (g : Glob) (path : List UInt8) : Bool :=
  if g.length == 1 && g.all Token.isAbove then true
  else if path.getLast? == some 46 && endsInNameWithDot g then false
  else matchTokens List.isEmpty g path

/-! ## Reading -/

def bytesOf (c : Char) : List UInt8 := String.utf8EncodeChar c

/-- The ranges of bytes of a range of characters: from the last byte of the first character to the
first byte of the last one, and the bytes around these alone. -/
def byteRanges (first last : Char) : List (UInt8 × UInt8) :=
  let single (bytes : List UInt8) := bytes.map fun b => (b, b)
  let a := bytesOf first
  let b := bytesOf last
  if first == last then single a
  else single a.dropLast ++ [(a.getLastD 0, b.headD 0)] ++ single (b.drop 1)

/-- Why a text is no pattern. -/
inductive Flaw where
  /-- A class that is not closed, which is no flaw: its bracket stands for itself. -/
  | unclosedClass
  /-- A range whose ends are in the wrong order. -/
  | reversedRange
  /-- A brace that closes nothing. -/
  | unopenedGroup
  /-- A group that is not closed. -/
  | unclosedGroup
  /-- A backslash at the end. -/
  | danglingEscape
deriving DecidableEq, Repr

/-- Reads the inside of a class behind its first members, latest first. -/
def readClass (ranges : List (Char × Char)) (isFirst inRange : Bool) :
    List Char → Except Flaw (List (Char × Char) × List Char)
  | [] => .error .unclosedClass
  | c :: rest =>
    -- a bracket in the first place is a member
    if c == ']' && !isFirst then
      .ok ((if inRange then ('-', '-') :: ranges else ranges).reverse, rest)
    else if c == '-' && !isFirst && !inRange then readClass ranges false true rest
    else if inRange && c != ']' then
      match ranges with
      | (first, _) :: before =>
        if c < first then .error .reversedRange
        else readClass ((first, c) :: before) false false rest
      | [] => readClass [(c, c)] false false rest
    else readClass ((c, c) :: ranges) false false rest

/-- A pattern that is being read. -/
structure Reading where
  /-- The parts of the current branch, latest first. -/
  branch : List Token := []
  /-- The finished branches of the current group, latest first. -/
  branches : List (List Token) := []
  /-- The branches and finished branches of the groups around it, innermost first. -/
  outer : List (List Token × List (List Token)) := []
  /-- The last character read. -/
  previous : Option Char := none
  /-- Whether brackets stand for themselves, since one was not closed. -/
  plainBrackets : Bool := false

namespace Reading

def push (r : Reading) (tokens : List Token) : Reading :=
  { r with branch := tokens.reverse ++ r.branch }

def pushChar (r : Reading) (c : Char) : Reading := r.push ((bytesOf c).map .byte)

def inGroup (r : Reading) : Bool := !r.outer.isEmpty

def openGroup (r : Reading) : Reading :=
  { r with branch := [], branches := [], outer := (r.branch, r.branches) :: r.outer }

def nextBranch (r : Reading) : Reading :=
  { r with branch := [], branches := r.branch.reverse :: r.branches }

/-- Closes the current group. Empty branches are dropped, and a group without branches is empty. -/
def closeGroup (r : Reading) : Except Flaw Reading :=
  match r.outer with
  | [] => .error .unopenedGroup
  | (branch, branches) :: outer =>
    let choices := (r.branch.reverse :: r.branches).reverse.filter (!·.isEmpty)
    let branch := if choices.isEmpty then branch else .oneOf choices :: branch
    .ok { r with branch, branches, outer }

/-- Puts two stars behind a separator, which they take in. -/
def pushStars (r : Reading) (last : Bool) : Reading :=
  match r.branch with
  | .above :: before => { r with branch := .above :: before }
  | .inside :: before => { r with branch := .inside :: before }
  | _ :: before => { r with branch := (if last then .inside else .between) :: before }
  | [] => r

/-- Reads stars behind a first one; the answer holds the number of further characters taken. -/
def stars (r : Reading) (rest : List Char) : Reading × Nat :=
  match rest with
  | '*' :: rest =>
    let plain := (r.push [.many, .many], 1)
    if r.branch.isEmpty then
      match rest with
      | [] => (r.push [.above], 1)
      | '/' :: _ => (r.push [.above], 2)
      | _ => plain
    else if r.previous != some '/' &&
        (!r.inGroup || (r.previous != some ',' && r.previous != some '\x7b')) then plain
    else
      match rest with
      | [] => (r.pushStars true, 1)
      | '/' :: _ => (r.pushStars false, 2)
      | ',' :: _ => if r.inGroup then (r.pushStars true, 1) else plain
      | '\x7d' :: _ => if r.inGroup then (r.pushStars true, 1) else plain
      | _ => plain
  | _ => (r.push [.many], 0)

/-- Reads a class behind its bracket. -/
def classAt (r : Reading) (rest : List Char) : Except Flaw (Reading × List Char) :=
  let (negated, inside) := match rest with
    | '!' :: inside => (true, inside)
    | '^' :: inside => (true, inside)
    | inside => (false, inside)
  match readClass [] true false inside with
  | .ok (ranges, rest) =>
    .ok ({ r.push [.oneIn negated (ranges.flatMap fun (a, b) => byteRanges a b)] with
      previous := some ']' }, rest)
  -- the bracket stands for itself, and so do those behind it
  | .error .unclosedClass =>
    .ok ({ r.pushChar '[' with plainBrackets := true, previous := some '[' }, rest)
  | .error e => .error e

/-- Reads the next character and what belongs to it. -/
def step (r : Reading) (c : Char) (rest : List Char) : Except Flaw (Reading × List Char) :=
  let seen (r : Reading) : Reading := { r with previous := some c }
  match c with
  | '?' => .ok (seen (r.push [.any]), rest)
  | '*' =>
    let (r, taken) := r.stars rest
    .ok ({ r with previous := (c :: rest)[taken]? }, rest.drop taken)
  | '[' => if r.plainBrackets then .ok (seen (r.pushChar c), rest) else r.classAt rest
  | '\x7b' => .ok (seen r.openGroup, rest)
  | '\x7d' => return (seen (← r.closeGroup), rest)
  | ',' => .ok (seen (if r.inGroup then r.nextBranch else r.pushChar c), rest)
  | '\\' =>
    match rest with
    | [] => .error .danglingEscape
    | d :: rest => .ok ({ r.pushChar d with previous := some d }, rest)
  | c => .ok (seen (r.pushChar c), rest)

/-- Reads a text to its end, at most `fuel` steps. -/
def run : (fuel : Nat) → Reading → List Char → Except Flaw Reading
  | _, r, [] => .ok r
  | 0, r, _ :: _ => .ok r
  | fuel + 1, r, c :: rest =>
    match r.step c rest with
    | .ok (r, rest) => run fuel r rest
    | .error e => .error e

end Reading

/-- Reads a pattern. Every step takes a character, so that the length bounds the steps. -/
def read (text : List Char) : Except Flaw Glob :=
  match Reading.run text.length {} text with
  | .ok r => if r.inGroup then .error .unclosedGroup else .ok r.branch.reverse
  | .error e => .error e

end Glob

end CallAtlas.Ignore
