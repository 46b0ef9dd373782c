import CallAtlas.Python.Kind
/-!
# Concrete syntax trees

A concrete tree keeps every token of its source together with the blanks before it, so that the
text of a node is the source text it spans. Faults are part of the tree: a stretch that no rule
accepts is a node of kind `error`, and a token that had to be supposed is a `missing` leaf.

`firstFault` finds the first fault by a search that enters only faulty subtrees.
-/

namespace CallAtlas.Python

inductive Tree where
  /-- A token on row `row` (counted from 0), written as `text` after the blanks `blank`. -/
  | leaf (kind : Kind) (row : Nat) (blank text : List Char)
  /-- A token that the source lacks on row `row`. -/
  | missing (kind : Kind) (row : Nat)
  /-- An application of a grammar rule. -/
  | branch (kind : Kind) (children : List Tree)

namespace Tree

def kind : Tree → Kind
  | leaf k .. => k
  | missing k _ => k
  | branch k _ => k

/-- The children of a node, named or not, in source order. -/
def children : Tree → List Tree
  | branch _ ts => ts
  | _ => []

def namedChildren (t : Tree) : List Tree :=
  t.children.filter (·.kind.named)

def isMissing : Tree → Bool
  | missing .. => true
  | _ => false

/-- Whether a node is itself a fault. -/
def isFault (t : Tree) : Bool := t.kind == .error || t.isMissing

mutual
/-- Everything a tree spans, with the blanks before its first token. -/
def fullText : Tree → List Char
  | leaf _ _ blank text => blank ++ text
  | missing .. => []
  | branch _ ts => fullTexts ts

/-- The concatenated spans of neighbouring trees. -/
def fullTexts : List Tree → List Char
  | [] => []
  | t :: ts => fullText t ++ fullTexts ts
end

mutual
/-- The source text of a node, from its first token to its last. -/
def chars : Tree → List Char
  | leaf _ _ _ text => text
  | missing .. => []
  | branch _ ts => charsOf ts

/-- The text of neighbouring trees without the blanks before the first token. -/
def charsOf : List Tree → List Char
  | [] => []
  | t :: ts => chars t ++ fullTexts ts
end

def text (t : Tree) : String := String.ofList t.chars

mutual
/-- The row on which a node begins. -/
def row : Tree → Nat
  | leaf _ r _ _ => r
  | missing _ r => r
  | branch _ ts => rowOf ts

/-- The row of the first of neighbouring trees; row 0 where there is none. -/
def rowOf : List Tree → Nat
  | [] => 0
  | t :: _ => row t
end

mutual
/-- Whether a fault occurs in a tree. -/
def hasFault : Tree → Bool
  | leaf k .. => k == .error
  | missing .. => true
  | branch k ts => k == .error || anyFault ts

def anyFault : List Tree → Bool
  | [] => false
  | t :: ts => hasFault t || anyFault ts
end

mutual
/-- The nodes of a tree in preorder, named or not. -/
def preorder : Tree → List Tree
  | leaf k r b t => [leaf k r b t]
  | missing k r => [missing k r]
  | branch k ts => branch k ts :: preorders ts

def preorders : List Tree → List Tree
  | [] => []
  | t :: ts => preorder t ++ preorders ts
end

mutual
def size : Tree → Nat
  | leaf .. => 1
  | missing .. => 1
  | branch _ ts => sizes ts + 1

def sizes : List Tree → Nat
  | [] => 0
  | t :: ts => size t + sizes ts
end

theorem sizes_append (ts us : List Tree) : sizes (ts ++ us) = sizes ts + sizes us := by
  induction ts with
  | nil => simp [sizes]
  | cons t ts ih => simp [sizes, ih, Nat.add_assoc]

theorem sizes_filter_le (p : Tree → Bool) (ts : List Tree) : sizes (ts.filter p) ≤ sizes ts := by
  induction ts with
  | nil => simp [sizes]
  | cons t ts ih =>
    by_cases h : p t
    · simp only [List.filter_cons_of_pos h, sizes]
      omega
    · simp only [List.filter_cons_of_neg h, sizes]
      omega

theorem sizes_children_lt (t : Tree) : sizes t.children < size t := by
  cases t <;> simp [children, size, sizes]

/-- Searches the pending trees in order, entering only subtrees that hold a fault. -/
def searchFault : List Tree → Option Tree
  | [] => none
  | t :: pending =>
    if t.isFault then some t
    else searchFault (t.children.filter (fun c => c.hasFault || c.isMissing) ++ pending)
termination_by pending => sizes pending
decreasing_by
  have h₁ := sizes_filter_le (fun c => c.hasFault || c.isMissing) t.children
  have h₂ := sizes_children_lt t
  simp only [sizes_append, sizes]
  omega

/-- The first fault of a tree in preorder. -/
def firstFault (t : Tree) : Option Tree := searchFault [t]

/-- A node of the given kind over neighbouring trees. Comments and line joins in front of its
first token stay outside. -/
def wrap (kind : Kind) (parts : List Tree) : List Tree :=
  parts.takeWhile (·.kind.isExtra) ++ [branch kind (parts.dropWhile (·.kind.isExtra))]

end Tree

end CallAtlas.Python
