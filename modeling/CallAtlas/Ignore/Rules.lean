import CallAtlas.Ignore.Glob
import CallAtlas.Text.Blank
/-!
# Ignore rules

Lists of lines that say which entries below a directory are to be ignored. Of the rules that match
an entry the last one counts, and a line that begins with an exclamation mark keeps what earlier ones
ignore. Lines that are no patterns are left out.
-/

namespace CallAtlas.Ignore

/-- A rule about entries. -/
structure Rule where
  glob : Glob
  /-- Whether the entries are kept. -/
  keeps : Bool
  directoriesOnly : Bool
deriving Repr, Inhabited

namespace Rule

/-- A text without white space at its end, unless that is escaped. -/
def trimEnd (line : List Char) : List Char :=
  if ['\\', ' '].isSuffixOf line then line
  else (line.reverse.dropWhile Text.isSpace).reverse

/-- The part of a line that its marks leave: whether it keeps, whether it is tied to the directory
of the rules, and the rest. -/
def marks (line : List Char) : Bool × Bool × List Char :=
  match line with
  | '\\' :: '!' :: rest => (false, false, '!' :: rest)
  | '\\' :: '#' :: rest => (false, false, '#' :: rest)
  | '!' :: '/' :: rest => (true, true, rest)
  | '!' :: rest => (true, false, rest)
  | '/' :: rest => (false, true, rest)
  | rest => (false, false, rest)

/-- A pattern without the separator at its end, which makes it one of directories only. -/
def dropEndSeparator (pattern : List Char) : Bool × List Char :=
  match pattern.reverse with
  | '/' :: '\\' :: rest => (true, rest.reverse)
  | '/' :: rest => (true, rest.reverse)
  | _ => (false, pattern)

/-- The pattern for whole paths: one without a separator matches at any depth, and one that ends in
two stars matches only what is below. -/
def wholePath (tied : Bool) (pattern : List Char) : List Char :=
  let everywhere := ['*', '*', '/']
  let pattern :=
    if tied || pattern.contains '/' || pattern == ['*', '*'] then pattern
    else everywhere ++ pattern
  if ['/', '*', '*'].isSuffixOf pattern then pattern ++ ['/', '*'] else pattern

/-- The rule of a line, if it is one. -/
def ofLine? (line : List Char) : Option Rule :=
  if line.head? == some '#' then none
  else
    let line := trimEnd line
    if line.isEmpty then none
    else
      let (keeps, tied, pattern) := marks line
      let (directoriesOnly, pattern) := dropEndSeparator pattern
      match Glob.read (wholePath tied pattern) with
      | .ok glob => some ⟨glob, keeps, directoriesOnly⟩
      | .error _ => none

def applies (r : Rule) (path : List UInt8) (isDirectory : Bool) : Bool :=
  (!r.directoriesOnly || isDirectory) && r.glob.isMatch path

end Rule

/-- What rules say about an entry. -/
inductive Verdict where
  | ignore
  | keep
deriving DecidableEq, Repr

/-- The rules of a directory. -/
structure Rules where
  /-- The directory as it is written. -/
  base : String
  rules : List Rule
deriving Repr, Inhabited

namespace Rules

/-- A path without the dot that it begins with. -/
def dropDot (path : List Char) : List Char :=
  match path with
  | '.' :: '/' :: rest => rest
  | path => path

/-- A text without a beginning, if it has it. -/
def dropStart (start text : List Char) : List Char :=
  if start.isPrefixOf text then text.drop start.length else text

def ofLines (base : String) (lines : List String) : Rules :=
  ⟨String.ofList (dropDot base.toList), lines.filterMap fun line => Rule.ofLine? line.toList⟩

def isEmpty (r : Rules) : Bool := r.rules.isEmpty

/-- A path as seen from the directory of the rules. A bare name stays as it is, and so does a path
that does not begin like the directory. -/
def relative (r : Rules) (path : String) : List Char :=
  let path := dropDot path.toList
  let base := r.base.toList
  if r.base == "." || !path.contains '/' || !base.isPrefixOf path then path
  else dropStart ['/'] (path.drop base.length)

/-- What the rules say about an entry: the last rule about it counts. -/
def verdict (r : Rules) (path : String) (isDirectory : Bool) : Option Verdict :=
  let bytes := (r.relative path).flatMap Glob.bytesOf
  (r.rules.reverse.find? fun rule => rule.applies bytes isDirectory).map fun rule =>
    if rule.keeps then .keep else .ignore

def excludes (r : Rules) (path : String) (isDirectory : Bool) : Bool :=
  r.verdict path isDirectory == some .ignore

end Rules

end CallAtlas.Ignore
