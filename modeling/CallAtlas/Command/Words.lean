import CallAtlas.Command.Usage
/-!
# Words of a command line

The words of a command line are taken in one by one. An argument whose value is the next word waits
for it, and a value that was a word of its own is only looked at once the next argument comes. So an
argument that is not known is reported before a wrong value in front of it.
-/

namespace CallAtlas.Command

inductive Word where
  /-- Two hyphens, behind which words have no special meaning. -/
  | escape
  /-- A word behind two hyphens, perhaps with a value behind an equality sign. -/
  | long (name : String) (value : Option String)
  | short (letters : List Char)
  | plain
deriving DecidableEq, Repr

namespace Word

/-- What is before and behind the first equality sign. -/
def splitValue (chars : List Char) : String × Option String :=
  match chars.dropWhile (· != '=') with
  | [] => (String.ofList chars, none)
  | _ :: value => (String.ofList (chars.takeWhile (· != '=')), some (String.ofList value))

/-- What a text is. A hyphen alone is nothing special. -/
def ofText (text : String) : Word :=
  match text.toList with
  | ['-', '-'] => escape
  | '-' :: '-' :: chars => let (name, value) := splitValue chars; long name value
  | ['-'] => plain
  | '-' :: letters => short letters
  | _ => plain

end Word

/-- What ends the reading of words before there is a command to carry out. -/
inductive Stop where
  /-- Words are wrong, perhaps those behind a command. -/
  | usage (command : Option Name) (e : UsageError)
  /-- The help is asked for, perhaps that on a command. -/
  | help (form : HelpForm) (command : Option Name)
  | version
  | noWords
deriving DecidableEq, Repr

/-- The decimal digits of a number below `2 ^ 64`, read behind digits that amount to `n`. -/
def readDigits (n : Nat) : List Char → Except NumberFlaw Nat
  | [] => .ok n
  | c :: rest =>
    if !c.isDigit then .error .noDigit
    else
      let n := 10 * n + (c.toNat - '0'.toNat)
      if n < UInt64.size then readDigits n rest else .error .tooLarge

/-- The number that a text denotes, perhaps behind a plus sign. -/
def readNumber (text : String) : Except NumberFlaw Nat :=
  match text.toList with
  | [] => .error .empty
  | ['+'] => .error .noDigit
  | '+' :: digits => readDigits 0 digits
  | digits => readDigits 0 digits

def Argument.check (a : Argument) (value : String) : Except UsageError Unit :=
  match a.kind with
  | .flag => .ok ()
  -- an empty text is as if no value were given
  | .path => if value.isEmpty then .error (.noValue a) else .ok ()
  | .format =>
    if value.isEmpty then .error (.noValue a)
    else if (Diagram.Format.ofName? value).isNone then .error (.invalidChoice a value)
    else .ok ()
  | .number =>
    match readNumber value with
    | .ok _ => .ok ()
    | .error flaw => .error (.invalidNumber a value flaw)

structure Given where
  /-- The command behind which they stand. -/
  command : Option Name := none
  values : List (Argument × String) := []
  /-- An argument that waits for its value, or for its value to be checked. -/
  pending : Option (Argument × Option String) := none
  /-- Whether words have lost their special meaning. -/
  escaped : Bool := false
deriving DecidableEq, Repr

namespace Given

def has (g : Given) (a : Argument) : Bool := g.values.any fun (b, _) => a == b

def value? (g : Given) (a : Argument) : Option String := g.values.lookup a

/-- Whether the next word is the value of an argument. -/
def isWaiting (g : Given) : Bool :=
  match g.pending with
  | some (_, none) => !g.escaped
  | _ => false

def refuse {α : Type} (g : Given) (e : UsageError) : Except Stop α := .error (.usage g.command e)

def accept (g : Given) (a : Argument) (value : String) : Except Stop Given :=
  if a = .version then .error .version
  else if g.has a then g.refuse (.repeated a)
  else
    match a.check value with
    | .error e => g.refuse e
    | .ok () => .ok { g with values := g.values ++ [(a, value)] }

def settle (g : Given) : Except Stop Given :=
  match g.pending with
  | none => .ok g
  | some (a, none) => g.refuse (.noValue a)
  | some (a, some value) => ({ g with pending := none } : Given).accept a value

/-- Takes in an argument that has no value of its own; `form` is the form of the help that it may
ask for. -/
def acceptFlag (form : HelpForm) (g : Given) (a : Argument) : Except Stop Given := do
  let g ← g.settle
  if a = .help then throw (.help form g.command) else g.accept a ""

/-- Takes in an argument with a value that is part of the same word. -/
def acceptAttached (g : Given) (a : Argument) (value : String) : Except Stop Given := do
  let g ← g.settle
  g.accept a value

/-- Lets an argument wait for its value. -/
def await (g : Given) (a : Argument) : Except Stop Given := do
  let g ← g.settle
  return { g with pending := some (a, none) }

/-- Takes in letters behind a hyphen. The letters behind one that takes a value are the value. -/
def acceptLetters (allowed : List Argument) : Given → List Char → Except Stop Given
  | g, [] => .ok g
  | g, c :: rest =>
    match allowed.find? fun a => a.short? == some c with
    | none => g.refuse (.unknownArgument ("-" ++ String.ofList [c]))
    | some a =>
      if !a.takesValue then do
        let g ← g.acceptFlag .short a
        acceptLetters allowed g rest
      else
        match rest with
        | [] => g.await a
        | '=' :: value => g.acceptAttached a (String.ofList value)
        | value => g.acceptAttached a (String.ofList value)

def acceptLong (allowed : List Argument) (g : Given) (name : String) (value : Option String) :
    Except Stop Given :=
  match allowed.find? fun a => a.long? == some name with
  | none => g.refuse (.unknownArgument ("--" ++ name))
  | some a =>
    match a.takesValue, value with
    | true, some value => g.acceptAttached a value
    | true, none => g.await a
    | false, some value => g.refuse (.unexpectedValue a value)
    | false, none => g.acceptFlag .long a

/-- Takes in a word that is told by its place: the path, if it is still open. -/
def acceptPlain (allowed : List Argument) (unknown : String → UsageError) (g : Given)
    (text : String) : Except Stop Given :=
  -- a path that has not been checked yet takes the place as well
  if allowed.contains .path && !g.has .path && (g.pending.map (·.1)) != some .path then do
    let g ← g.settle
    return { g with pending := some (.path, some text) }
  else g.refuse (unknown text)

/-- Takes in a word, where `allowed` are the arguments that may come and `unknown` tells what is
wrong with a word that has no place. -/
def acceptWord (allowed : List Argument) (unknown : String → UsageError) (g : Given)
    (text : String) : Except Stop Given :=
  if g.escaped then g.acceptPlain allowed unknown text
  else
    match Word.ofText text, g.pending with
    | .escape, _ => .ok { g with escaped := true }
    | .long name value, _ => g.acceptLong allowed name value
    | .short letters, _ => g.acceptLetters allowed letters
    | .plain, some (a, none) => .ok { g with pending := some (a, some text) }
    | .plain, _ => g.acceptPlain allowed unknown text

end Given

end CallAtlas.Command
