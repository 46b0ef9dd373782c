/-!
# Outlines of source files

An outline is what remains of a source file once everything without meaning for calls, scopes and
imports is dropped: a tree whose nodes are numbered in the order in which they were added. Node 0
is the file itself, and every other node is a child of an earlier one.
-/

namespace CallAtlas

/-- A name bound by an import, `name as alias`. -/
structure ImportedName where
  name : String
  /-- The local name, if the import gives one. -/
  localName : Option String
deriving DecidableEq, Repr, Inhabited

/-- The name visible in the importing file. -/
def ImportedName.bound (n : ImportedName) : String := n.localName.getD n.name

/-- What a node of an outline stands for. -/
inductive Construct where
  | module
  | importModules (names : List ImportedName)
  /-- An import of names from a module, which a purely relative import leaves open. -/
  | importFrom (module : Option String) (names : List ImportedName)
  | classDef (name : String)
  | functionDef (name : String)
  /-- A call, whose first child is the called expression. -/
  | call
  | name (id : String)
  /-- A member of the child expression. -/
  | attribute (member : String)
  | other
deriving DecidableEq, Repr, Inhabited

/-- A node with the numbers of its children. -/
structure OutlineNode where
  construct : Construct
  children : Array Nat := #[]
deriving Inhabited

/-- A tree of constructs, numbered from its root 0 on. -/
structure Outline where
  nodes : Array OutlineNode
  size_pos : 0 < nodes.size

namespace Outline

/-- The outline of an empty file. -/
def root : Outline := ⟨#[⟨.module, #[]⟩], by decide⟩

instance : Inhabited Outline := ⟨root⟩

def size (o : Outline) : Nat := o.nodes.size

/-- Whether there is no node but the root. -/
def isEmpty (o : Outline) : Bool := o.size == 1

/-- Adds a node as the last child of `parent`. Its number is the former size. -/
def push (o : Outline) (parent : Nat) (construct : Construct) : Outline where
  nodes := (o.nodes.push ⟨construct, #[]⟩).modify parent fun n =>
    { n with children := n.children.push o.nodes.size }
  size_pos := by simp

/-- What a node stands for; unknown numbers stand for nothing of interest. -/
def construct (o : Outline) (i : Nat) : Construct :=
  match o.nodes[i]? with
  | some n => n.construct
  | none => .other

def children (o : Outline) (i : Nat) : List Nat :=
  match o.nodes[i]? with
  | some n => n.children.toList
  | none => []

def callTarget (o : Outline) (i : Nat) : Option Nat :=
  match o.construct i with
  | .call => (o.children i).head?
  | _ => none

end Outline

end CallAtlas
