import CallAtlas.Scope.Context
/-!
# Walking an outline

`Outline.walk` visits the nodes of an outline in preorder and gives the calls, imports and aliases
of the file. Nodes deeper than a limit make the walk fail; an import that names no module is skipped
with everything below it.
-/

namespace CallAtlas

/-- What one file contributes to the graphs. -/
structure WalkResult where
  /-- The module that the file was walked as. -/
  module : String
  /-- Scopes and what they call. -/
  callGraph : NameGraph
  /-- The module and what it imports. -/
  importGraph : NameGraph
  /-- The names bound by imports. -/
  aliases : Aliases
deriving Inhabited

def ScopeContext.result (c : ScopeContext) : WalkResult :=
  ⟨c.module, c.callGraph, c.importGraph, c.aliases⟩

/-- The greatest depth of nodes that a walk admits unless told otherwise. -/
def defaultMaxDepth : Nat := 100000

/-- A pending action of a walk. -/
inductive WalkStep where
  | enter (node depth : Nat)
  | exitClass
  | exitFunction

/-- The walk found a node deeper than allowed. -/
structure TooDeep where
  /-- The greatest depth that the walk admitted. -/
  limit : Nat
deriving DecidableEq, Repr

namespace Outline

/-- What visiting a node does to the context, and what is to be left after its children. The answer
is `none` where the children are skipped. -/
def visit (o : Outline) (node : Nat) (c : ScopeContext) :
    ScopeContext × Option (List WalkStep) :=
  match o.construct node with
  | .importModules names =>
    (names.foldl (fun c n => (c.addAlias n.bound n.name).addImport n.name) c, some [])
  | .importFrom none _ => (c, none)
  | .importFrom (some source) names =>
    let c := names.foldl (fun c n => c.addAlias n.bound (joinDots [source, n.name])) c
    (c.addImport source, some [])
  | .classDef name => (c.enterClass name, some [.exitClass])
  | .functionDef name => (c.enterFunction name, some [.exitFunction])
  | .call =>
    match c.currentScope, c.callee o node with
    | some caller, some callee => (c.addCall caller callee, some [])
    | _, _ => (c, some [])
  | .module | .name _ | .attribute _ | .other => (c, some [])

/-- Carries out the pending actions, at most `fuel` of them. -/
def walkSteps (o : Outline) (maxDepth : Nat) :
    (fuel : Nat) → List WalkStep → ScopeContext → Except TooDeep ScopeContext
  | _, [], c => .ok c
  | 0, _ :: _, c => .ok c
  | fuel + 1, .exitClass :: pending, c => walkSteps o maxDepth fuel pending c.exitClass
  | fuel + 1, .exitFunction :: pending, c => walkSteps o maxDepth fuel pending c.exitFunction
  | fuel + 1, .enter node depth :: pending, c =>
    if maxDepth < depth then .error ⟨maxDepth⟩
    else
      match o.visit node c with
      | (c, none) => walkSteps o maxDepth fuel pending c
      | (c, some leave) =>
        -- the scope is left behind the last child
        let children := (o.children node).map fun child => .enter child (depth + 1)
        walkSteps o maxDepth fuel (children ++ leave ++ pending) c

/-- Walks an outline as a module. Every node is entered at most once and left at most once, which
bounds the number of actions. -/
def walk (o : Outline) (maxDepth : Nat) (module : String) : Except TooDeep WalkResult :=
  (walkSteps o maxDepth (2 * o.size) [.enter 0 0] { module }).map ScopeContext.result

end Outline

end CallAtlas
