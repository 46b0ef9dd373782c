import CallAtlas.Diagram.Layout
/-!
# Arguments

The commands of the command line and the arguments that each of them takes.
-/

namespace CallAtlas.Command

inductive Name where
  | analyze
  | graph
  | cycles
  | export
  | init
deriving DecidableEq, Repr, Inhabited

namespace Name

/-- Every command in the order of the help. -/
def all : List Name := [analyze, graph, cycles, .export, init]

def text : Name → String
  | analyze => "analyze"
  | graph => "graph"
  | cycles => "cycles"
  | .export => "export"
  | init => "init"

def ofText? (word : String) : Option Name := all.find? fun c => c.text == word

def about : Name → String
  | analyze => "Run the full pipeline on a file or directory"
  | graph => "Build and write the graph document only"
  | cycles => "Detect cycles in a previously written graph document"
  | .export => "Render diagrams from previously written artifacts"
  | init => "Write a default callmap.toml"

end Name

inductive Argument where
  | verbose
  | config
  | help
  | version
  | path
  | cycles
  | diagrams
  | all
  | output
  | format
  | dedupeCycles
  | workers
  | respectIgnore
  | graphFile
  | importGraph
  | cyclesFile
  | force
deriving DecidableEq, Repr, Inhabited

/-- What an argument's value must be. -/
inductive Kind where
  | flag
  | path
  | format
  | number
deriving DecidableEq, Repr

namespace Argument

def kind : Argument → Kind
  | config | path | output | graphFile | cyclesFile => .path
  | format => .format
  | workers => .number
  | _ => .flag

def takesValue (a : Argument) : Bool := a.kind != .flag

/-- The word behind two hyphens for an argument; the argument that is told by its place alone has
none. -/
def long? : Argument → Option String
  | verbose => some "verbose"
  | config => some "config"
  | help => some "help"
  | version => some "version"
  | path => none
  | cycles => some "cycles"
  | diagrams => some "diagrams"
  | all => some "all"
  | output => some "output"
  | format => some "format"
  | dedupeCycles => some "dedupe-cycles"
  | workers => some "workers"
  | respectIgnore => some "respect-ignore"
  | graphFile => some "graph"
  | importGraph => some "import-graph"
  | cyclesFile => some "cycles"
  | force => some "force"

def short? : Argument → Option Char
  | verbose => some 'v'
  | config => some 'c'
  | help => some 'h'
  | version => some 'V'
  | output => some 'o'
  | workers => some 'w'
  | graphFile => some 'g'
  | _ => none

def valueName (a : Argument) : String := ((a.long?).getD "path").toUpper

/-- How messages name an argument. -/
def shown (a : Argument) : String :=
  match a.long? with
  | none => "<" ++ a.valueName ++ ">"
  | some word => "--" ++ word ++ (if a.takesValue then " <" ++ a.valueName ++ ">" else "")

/-- The values among which a message lets choose. -/
def choices (a : Argument) : List String :=
  if a.kind = .format then [Diagram.Format.mermaid.name, Diagram.Format.dot.name] else []

def about : Argument → String
  | verbose => "Enable verbose logging"
  | config => "Config file (defaults to ./callmap.toml when present)"
  | help => "Print help"
  | version => "Print version"
  | path => "File or directory to analyze"
  | cycles => "Detect cycles"
  | diagrams => "Render diagrams"
  | all => "Run every stage (the default when no stage is selected)"
  | output => "Output directory for artifacts"
  | format => "Diagram format"
  | dedupeCycles => "Drop cycles that are rotations of an earlier one"
  | workers => "Worker threads"
  | respectIgnore => "Honour .gitignore/.ignore files and skip hidden entries"
  | graphFile => "Graph document (defaults to <output>/call_graph.json)"
  | importGraph => "Search the import graph instead of the call graph"
  | cyclesFile => "Cycle document (defaults to <output>/cycles.json when present)"
  | force => "Overwrite an existing file"

/-- The arguments that may stand before and behind a command. -/
def everywhere : List Argument := [verbose, config, help]

/-- The arguments that may stand before a command. -/
def beforeCommand : List Argument := everywhere ++ [version]

end Argument

/-- The arguments that may stand behind a command. -/
def Name.arguments (c : Name) : List Argument :=
  (match c with
    | analyze => [.path, .cycles, .diagrams, .all, .output, .format, .dedupeCycles, .workers,
        .respectIgnore]
    | graph => [.path, .output, .workers, .respectIgnore]
    | cycles => [.graphFile, .output, .importGraph, .dedupeCycles]
    | .export => [.graphFile, .cyclesFile, .output, .format]
    | init => [.force]) ++ Argument.everywhere

end CallAtlas.Command
