import CallAtlas.Command.Argument
/-!
# Usage errors and help

What the command line says about words that it does not understand, and about itself.
-/

namespace CallAtlas.Command

inductive NumberFlaw where
  | empty
  /-- It has something other than digits. -/
  | noDigit
  | tooLarge
deriving DecidableEq, Repr

def NumberFlaw.message : NumberFlaw → String
  | empty => "cannot parse integer from empty string"
  | noDigit => "invalid digit found in string"
  | tooLarge => "number too large to fit in target type"

/-- Why words are no command with its arguments. -/
inductive UsageError where
  /-- A word is no argument, or one too many. -/
  | unknownArgument (word : String)
  | unknownCommand (word : String)
  | noCommand
  | missing (a : Argument)
  | noValue (a : Argument)
  /-- An argument has a value that it does not take. -/
  | unexpectedValue (a : Argument) (value : String)
  | repeated (a : Argument)
  | invalidChoice (a : Argument) (value : String)
  | invalidNumber (a : Argument) (value : String) (flaw : NumberFlaw)
deriving DecidableEq, Repr

def program : String := "callmap"

def version : String := "0.0.1"

namespace UsageError

/-- The list of possible values on a line of its own, if there are any. -/
def listed (title : String) : List String → String
  | [] => ""
  | choices => "\n  [" ++ title ++ ": " ++ ", ".intercalate choices ++ "]"

def message : UsageError → String
  | unknownArgument word => "unexpected argument '" ++ word ++ "' found"
  | unknownCommand word => "unrecognized subcommand '" ++ word ++ "'"
  | noCommand =>
    "'" ++ program ++ "' requires a subcommand but one was not provided" ++
      listed "subcommands" (Name.all.map Name.text ++ ["help"])
  | missing a => "the following required arguments were not provided:\n  " ++ a.shown
  | noValue a =>
    "a value is required for '" ++ a.shown ++ "' but none was supplied" ++
      listed "possible values" a.choices
  | unexpectedValue a value =>
    "unexpected value '" ++ value ++ "' for '" ++ a.shown ++ "' found; no more were accepted"
  | repeated a => "the argument '" ++ a.shown ++ "' cannot be used multiple times"
  | invalidChoice a value =>
    "invalid value '" ++ value ++ "' for '" ++ a.shown ++ "'" ++
      listed "possible values" a.choices
  | invalidNumber a value flaw =>
    "invalid value '" ++ value ++ "' for '" ++ a.shown ++ "': " ++ flaw.message

/-- Whether an error is about the value of an argument, which the synopsis of the command does not
tell. -/
def isAboutValue : UsageError → Bool
  | noValue _ | invalidChoice _ _ | invalidNumber _ _ _ => true
  | _ => false

end UsageError

/-! ## Help -/

inductive HelpForm where
  | short
  | long
deriving DecidableEq, Repr

def columns (rows : List (String × String)) : String :=
  let width := (rows.map fun r => r.1.length).foldl max 0
  String.join (rows.map fun (left, right) =>
    "  " ++ left ++ String.ofList (List.replicate (width - left.length) ' ') ++ "  " ++ right ++
      "\n")

/-- Entries with what is said about each of them on a line of its own. -/
def paragraphs (rows : List (String × String)) : String :=
  "\n".intercalate (rows.map fun (left, right) =>
    "  " ++ left ++ "\n" ++ String.ofList (List.replicate 10 ' ') ++ right ++ "\n")

def Argument.listed (a : Argument) : String :=
  match a.short? with
  | some c => "-" ++ String.ofList [c] ++ ", " ++ a.shown
  | none => "    " ++ a.shown

def Argument.described (a : Argument) : String :=
  a.about ++
    (if a.choices.isEmpty then ""
      else " [possible values: " ++ ", ".intercalate a.choices ++ "]")

/-- How the program or one of its commands is called; `options` stands for what may be left out. -/
def synopsis (options : String) : Option Name → String
  | none => "Usage: " ++ program ++ options ++ " <COMMAND>"
  | some c =>
    "Usage: " ++ program ++ " " ++ c.text ++ options ++
      String.join ((c.arguments.filter (· == .path)).map fun a => " " ++ a.shown)

def someOptions : String := " [OPTIONS]"

def programAbout : HelpForm → String
  | .short => "Scope-aware call and import graphs for Python codebases\n"
  | .long =>
    "Callmap walks Python sources and builds:\n" ++
      "  • A call graph between scopes (module.Class.function)\n" ++
      "  • An import graph between modules\n" ++
      "  • The cycles in the call graph\n" ++
      "  • Cycle-highlighted Mermaid or Graphviz diagrams\n\n" ++
      "Example usage:\n  callmap analyze ./src\n  callmap analyze ./src --cycles -o out\n" ++
      "  callmap export --format dot\n"

/-- What one form of the program's help says about an option. Each form points to the other one. -/
def programOption (form : HelpForm) (a : Argument) : String × String :=
  (a.listed,
    match a, form with
    | .help, .short => a.described ++ " (see more with '--help')"
    | .help, .long => a.described ++ " (see a summary with '-h')"
    | _, _ => a.described)

def programHelp (form : HelpForm) : String :=
  let options := Argument.beforeCommand.map (programOption form)
  programAbout form ++ "\n" ++ synopsis someOptions none ++ "\n\nCommands:\n" ++
    columns (Name.all.map (fun c => (c.text, c.about)) ++
      [("help", "Print this message or the help of the given subcommand(s)")]) ++
    "\nOptions:\n" ++
    (match form with
      | .short => columns options
      | .long => paragraphs options)

/-- The help on a command, which has one form only. -/
def Name.help (c : Name) : String :=
  let (path, options) := c.arguments.partition (· == .path)
  c.about ++ "\n\n" ++ synopsis someOptions c ++ "\n\n" ++
    (if path.isEmpty then ""
      else "Arguments:\n" ++ columns (path.map fun a => (a.shown, a.about)) ++ "\n") ++
    "Options:\n" ++ columns (options.map fun a => (a.listed, a.described))

/-! ## Wording -/

/-- The texts of the library that reads command lines, as far as they are its own. Behind the message
of an error it may guess from the words what was meant, and it chooses by the words what to show of
the synopsis. -/
structure Wording where
  /-- What stands behind the message about an error in words, perhaps in those behind a command. -/
  advice : List String → Option Name → UsageError → String
  help : HelpForm → Option Name → String

namespace Wording

def refusal (w : Wording) (words : List String) (command : Option Name) (e : UsageError) : String :=
  "error: " ++ e.message ++ w.advice words command e

/-- A wording without guesses, which shows the same of the synopsis whatever the words are. -/
def standard : Wording where
  advice _ command e :=
    (match e with
      -- the arguments that are missing are shown without those that are not
      | .missing _ => "\n\n" ++ synopsis "" command
      | e => if e.isAboutValue then "" else "\n\n" ++ synopsis someOptions command) ++
      "\n\nFor more information, try '--help'.\n"
  help form
    | none => programHelp form
    | some c => c.help

end Wording

end CallAtlas.Command
