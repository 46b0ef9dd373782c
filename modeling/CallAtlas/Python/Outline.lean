import CallAtlas.Python.Read
import CallAtlas.Outline
import CallAtlas.Text.Blank
/-!
# The outline of a Python file

`Tree.outline` numbers the named nodes of a concrete tree in preorder and keeps of each what matters
for scopes, calls and imports. `outline` reads a source text; a text with a fault is refused with
the line of its first fault.
-/

namespace CallAtlas.Python

namespace Tree

/-- The first child of a kind. -/
def childOf (t : Tree) (kind : Kind) : Option Tree := t.children.find? (·.kind == kind)

/-- The last child of a kind. -/
def lastChildOf (t : Tree) (kind : Kind) : Option Tree :=
  t.children.reverse.find? (·.kind == kind)

/-- The name that a node of an import denotes, if it denotes one. -/
def importedName (t : Tree) : Option ImportedName :=
  match t.kind with
  | .dottedName => some ⟨t.text, none⟩
  | .aliasedImport =>
    (t.childOf .dottedName).map fun name => ⟨name.text, (t.childOf .identifier).map text⟩
  | _ => none

/-- The module that the text of an import names, without the dots of a relative import. -/
def modulePath (source : String) : Option String :=
  let path := Text.trim (source.toList.dropWhile (· == '.'))
  if path.isEmpty then none else some (String.ofList path)

/-- The children of an import behind the module it imports from, and that module. -/
def importSource (t : Tree) : Option Tree × List Tree :=
  let isSource (c : Tree) : Bool := c.kind == .dottedName || c.kind == .relativeImport
  (t.children.find? isSource, (t.children.dropWhile (!isSource ·)).drop 1)

/-- What a node stands for in an outline. -/
def construct (t : Tree) : Construct :=
  match t.kind with
  | .importStatement => .importModules (t.children.filterMap importedName)
  | .importFromStatement =>
    let (source, names) := t.importSource
    .importFrom (source.bind (modulePath ·.text)) (names.filterMap importedName)
  | .futureImportStatement => .importFrom (some "__future__") (t.children.filterMap importedName)
  | .classDefinition =>
    match t.childOf .identifier with
    | some name => .classDef name.text
    | none => .other
  | .functionDefinition =>
    match t.childOf .identifier with
    | some name => .functionDef name.text
    | none => .other
  | .call => .call
  | .identifier => .name t.text
  | .attribute =>
    match t.lastChildOf .identifier with
    | some member => .attribute member.text
    | none => .other
  | _ => .other

theorem sizes_namedChildren_lt (t : Tree) : sizes t.namedChildren < size t :=
  Nat.lt_of_le_of_lt (sizes_filter_le _ _) (sizes_children_lt t)

theorem sizes_map_snd (ts : List Tree) (parent : Nat) :
    sizes ((ts.map fun t => (parent, t)).map (·.2)) = sizes ts := by
  simp [List.map_map, Function.comp_def]

/-- Adds the pending nodes, each below the node that its number names, and their named children. -/
def outlineSteps (o : Outline) : List (Nat × Tree) → Outline
  | [] => o
  | (parent, t) :: pending =>
    -- what is below a node is numbered before what stands behind it
    outlineSteps (o.push parent t.construct)
      ((t.namedChildren.map fun child => (o.size, child)) ++ pending)
termination_by pending => sizes (pending.map (·.2))
decreasing_by
  have h := sizes_namedChildren_lt t
  simp only [List.map_append, sizes_append, sizes_map_snd, List.map_cons, sizes]
  omega

/-- The outline of a concrete tree: its named nodes in preorder. -/
def outline (t : Tree) : Outline :=
  outlineSteps .root (t.namedChildren.map fun child => (0, child))

end Tree

/-- A source text has a fault on a line, counted from 1. -/
structure InvalidSource where
  /-- The line of the first fault. -/
  line : Nat
deriving DecidableEq, Repr

/-- The outline of a concrete tree, which is refused if it holds a fault. -/
def Tree.checked (t : Tree) : Except InvalidSource Outline :=
  if t.hasFault then .error ⟨((t.firstFault.map (·.row)).getD 0) + 1⟩ else .ok t.outline

/-- The outline of a source text. -/
def outline (source : String) : Except InvalidSource Outline := (read source).checked

end CallAtlas.Python
