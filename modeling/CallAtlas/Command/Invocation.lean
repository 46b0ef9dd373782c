import CallAtlas.Command.Words
import CallAtlas.Pipeline
import CallAtlas.Settings
/-!
# Invocations

What a command line asks for: a command, and what it sets in place of the settings.
-/

namespace CallAtlas.Command

/-- What a command line sets for one run. -/
structure Overrides where
  output : Option Path := none
  workers : Option Nat := none
  format : Option Diagram.Format := none
  /-- Whether ignore files count in any case. -/
  respectIgnore : Bool := false
  /-- Whether rotations of earlier cycles are dropped in any case. -/
  dedupeCycles : Bool := false
deriving DecidableEq, Repr

def Overrides.apply (o : Overrides) (s : Settings) : Settings :=
  { s with
    output := o.output.getD s.output
    workers := o.workers.or s.workers
    format := o.format.getD s.format
    respectIgnore := s.respectIgnore || o.respectIgnore
    dedupeCycles := s.dedupeCycles || o.dedupeCycles }

inductive Task where
  | analyze (root : Path) (stages : Stages)
  | graph (root : Path)
  | cycles (graph : Option Path) (source : CycleSource)
  | export (graph cycles : Option Path)
  | init (force : Bool)
deriving DecidableEq, Repr

structure Invocation where
  settingsFile : Option Path
  overrides : Overrides
  task : Task
deriving DecidableEq, Repr

namespace Given

def path? (g : Given) (a : Argument) : Option Path := (g.value? a).map fun text => ⟨text⟩

def format? (g : Given) (a : Argument) : Option Diagram.Format :=
  (g.value? a).bind Diagram.Format.ofName?

def number? (g : Given) (a : Argument) : Option Nat :=
  (g.value? a).bind fun text => (readNumber text).toOption

def overrides (g : Given) : Overrides where
  output := g.path? .output
  workers := g.number? .workers
  format := g.format? .format
  respectIgnore := g.has .respectIgnore
  dedupeCycles := g.has .dedupeCycles

def task (g : Given) : Name → Except UsageError Task
  | .analyze =>
    match g.path? .path with
    | some root => .ok (.analyze root (.select (g.has .cycles) (g.has .diagrams) (g.has .all)))
    | none => .error (.missing .path)
  | .graph =>
    match g.path? .path with
    | some root => .ok (.graph root)
    | none => .error (.missing .path)
  | .cycles =>
    .ok (.cycles (g.path? .graphFile) (if g.has .importGraph then .importGraph else .callGraph))
  | .export => .ok (.export (g.path? .graphFile) (g.path? .cyclesFile))
  | .init => .ok (.init (g.has .force))

end Given

namespace Invocation

def readArguments (c : Name) (words : List String) : Except Stop (Given × Task) := do
  let g ← words.foldlM (Given.acceptWord c.arguments .unknownArgument) { command := c }
  let g ← g.settle
  match g.task c with
  | .ok task => return (g, task)
  | .error e => g.refuse e

def helpWord : String := "help"

/-- What stops the reading of the words behind the word for the help. -/
def helpOn : List String → Stop
  | [] => .help .long none
  | word :: rest =>
    match Name.ofText? word, rest with
    | none, [] =>
      if word == helpWord then .help .long none else .usage none (.unknownCommand word)
    | none, next :: _ =>
      .usage none (.unknownCommand (if word == helpWord then next else word))
    | some c, [] => .help .long c
    | some c, next :: _ => .usage c (.unknownCommand next)

/-- What is wrong with a word that is no argument before a command. Behind two hyphens a command is
an argument too many. -/
def noCommandWord (escaped : Bool) (word : String) : UsageError :=
  if escaped && ((Name.ofText? word).isSome || word == helpWord) then .unknownArgument word
  else .unknownCommand word

/-- Reads words behind given arguments. The arguments before a command are settled behind it. -/
def readFrom (g : Given) : List String → Except Stop Invocation
  | [] => do
    let g ← g.settle
    if g.values.isEmpty then throw .noWords else g.refuse .noCommand
  | word :: rest =>
    let mayCommand := !g.escaped && !g.isWaiting
    if mayCommand && word == helpWord then .error (helpOn rest)
    else
      match if mayCommand then Name.ofText? word else none with
      | some c => do
        let (inner, task) ← readArguments c rest
        let g ← g.settle
        return ⟨(inner.path? .config).or (g.path? .config), inner.overrides, task⟩
      | none => do
        let g ← g.acceptWord Argument.beforeCommand (noCommandWord g.escaped) word
        readFrom g rest

def ofWords (words : List String) : Except Stop Invocation := readFrom {} words

end Invocation

end CallAtlas.Command
