import CallAtlas.Graph.Digraph
import CallAtlas.Outline
/-!
# Scopes

While a file is walked, a `ScopeContext` knows the enclosing classes and functions, the names bound
by imports so far, and the graphs built so far. A scope is written as the module, the classes and
the functions around a place, joined by dots; there is none outside of functions.
-/

namespace CallAtlas

/-- Identifiers and the identifiers they lead to. -/
abbrev NameGraph := Digraph String

/-- The local names bound by imports and what they stand for. -/
abbrev Aliases := OrderedMap String String

def joinDots (segments : List String) : String := ".".intercalate segments

/-- What is known at a place of a file. -/
structure ScopeContext where
  module : String
  /-- The enclosing classes, outermost first. -/
  classes : List String := []
  /-- The enclosing functions, outermost first. -/
  functions : List String := []
  /-- The names bound by imports so far. -/
  aliases : Aliases := ∅
  /-- Scopes and what they call. -/
  callGraph : NameGraph := ∅
  /-- The module and what it imports. -/
  importGraph : NameGraph := ∅
deriving Inhabited

namespace ScopeContext

/-- The identifier of the enclosing scope. -/
def currentScope (c : ScopeContext) : Option String :=
  if c.functions.isEmpty then none
  else some (joinDots (c.module :: (c.classes ++ c.functions)))

def qualify (c : ScopeContext) (name : String) : String := joinDots [c.module, name]

def enterClass (c : ScopeContext) (name : String) : ScopeContext :=
  { c with classes := c.classes ++ [name] }

def exitClass (c : ScopeContext) : ScopeContext := { c with classes := c.classes.dropLast }

/-- Enters a function, whose scope becomes a key of the call graph. -/
def enterFunction (c : ScopeContext) (name : String) : ScopeContext :=
  let c := { c with functions := c.functions ++ [name] }
  match c.currentScope with
  | some scope => { c with callGraph := c.callGraph.addKey scope }
  | none => c

def exitFunction (c : ScopeContext) : ScopeContext := { c with functions := c.functions.dropLast }

/-- Binds a local name, in place of an earlier binding. -/
def addAlias (c : ScopeContext) (bound origin : String) : ScopeContext :=
  { c with aliases := c.aliases.insert bound origin }

def addCall (c : ScopeContext) (caller callee : String) : ScopeContext :=
  { c with callGraph := c.callGraph.addEdge caller callee }

/-- Records that the module imports another. -/
def addImport (c : ScopeContext) (target : String) : ScopeContext :=
  { c with importGraph := c.importGraph.addEdge c.module target }

/-- What a call refers to: a bare name is what it was imported as, or a name of the module; a member
is a name of the module whatever it is a member of. Other calls refer to nothing. -/
def callee (c : ScopeContext) (o : Outline) (call : Nat) : Option String :=
  match o.callTarget call with
  | none => none
  | some target =>
    match o.construct target with
    | .name id => some ((c.aliases.get? id).getD (c.qualify id))
    | .attribute member => some (c.qualify member)
    | _ => none

end ScopeContext

end CallAtlas
