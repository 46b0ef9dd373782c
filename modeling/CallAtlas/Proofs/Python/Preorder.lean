import CallAtlas.Proofs.Lists
import CallAtlas.Proofs.Outline.Arena
import CallAtlas.Python.Outline
import Mathlib.Data.List.Infix
/-!
# The numbers of named nodes

The outline of a concrete tree is computed with a list of pending nodes, each with the number of the
node above it. It is the same as if the named nodes were numbered recursively in preorder: a node
stands for what the named node at its place in preorder stands for, and its children are the named
children of that one, each numbered behind everything below the ones before it.

The induction is on the number of nodes of neighbouring trees. They are added one after another, with
everything below each, before the search goes on with what else was pending.
-/

namespace CallAtlas.Python.Tree

/-! ### Named nodes in preorder -/

mutual
/-- The named nodes from the root of a tree on in preorder; the root counts in any case. -/
def namedNodes : Tree → List Tree
  | leaf kind row blank text => [leaf kind row blank text]
  | missing kind row => [missing kind row]
  | branch kind ts => branch kind ts :: namedNodesAmong ts

def namedNodesAmong : List Tree → List Tree
  | [] => []
  | t :: ts => if t.kind.named then namedNodes t ++ namedNodesAmong ts else namedNodesAmong ts
end

theorem namedNodesAmong_eq (ts : List Tree) :
    namedNodesAmong ts = (ts.filter (·.kind.named)).flatMap namedNodes := by
  induction ts with
  | nil => rfl
  | cons t ts ih =>
    rw [namedNodesAmong, ih]
    by_cases h : t.kind.named
    · simp [h]
    · simp [h]

theorem namedNodes_eq (t : Tree) : t.namedNodes = t :: t.namedChildren.flatMap namedNodes := by
  cases t with
  | leaf => rfl
  | missing => rfl
  | branch kind ts => rw [namedNodes, namedNodesAmong_eq, namedChildren, children]

theorem size_pos (t : Tree) : 0 < t.size :=
  Nat.lt_of_le_of_lt (Nat.zero_le _) t.sizes_namedChildren_lt

/-- What is below a node follows it in preorder. -/
theorem namedNodes_prefix_drop {ts : List Tree} {n : Tree} {i : Nat}
    (h : (ts.flatMap namedNodes)[i]? = some n) :
    n.namedNodes <+: (ts.flatMap namedNodes).drop i := by
  induction hsize : sizes ts using Nat.strong_induction_on generalizing ts i with
  | _ size ih =>
    cases ts with
    | nil => simp at h
    | cons t ts =>
      have hbelow := t.sizes_namedChildren_lt
      have hpos := t.size_pos
      rw [sizes] at hsize
      rw [List.flatMap_cons, namedNodes_eq t] at h ⊢
      cases i with
      | zero =>
        obtain rfl : t = n := by simpa using h
        rw [namedNodes_eq t]
        exact List.prefix_append _ _
      | succ i =>
        rw [List.cons_append, List.getElem?_cons_succ, List.getElem?_append] at h
        rw [List.cons_append, List.drop_succ_cons, List.drop_append]
        split at h
        · have hprefix := ih _ (by omega) h rfl
          exact hprefix.trans (List.prefix_append _ _)
        · rename_i hlength
          have hprefix := ih _ (by omega) h rfl
          rwa [List.drop_eq_nil_of_le (by omega), List.nil_append]

/-! ### Numbers -/

/-- The numbers of neighbouring nodes, if the first one has the number `first` and each is numbered
behind everything below the one before it. -/
def numbersFrom (first : Nat) : List Tree → List Nat
  | [] => []
  | t :: ts => first :: numbersFrom (first + t.namedNodes.length) ts

/-- The nodes of an outline for nodes in preorder that are numbered from `first` on. -/
def nodesFrom (first : Nat) (ts : List Tree) : List OutlineNode :=
  (ts.zipIdx first).map fun (t, i) => ⟨t.construct, (numbersFrom (i + 1) t.namedChildren).toArray⟩

theorem nodesFrom_append (first : Nat) (ts us : List Tree) :
    nodesFrom first (ts ++ us) = nodesFrom first ts ++ nodesFrom (first + ts.length) us := by
  rw [nodesFrom, List.zipIdx_append, List.map_append]
  rfl

theorem nodesFrom_cons (first : Nat) (t : Tree) (ts : List Tree) :
    nodesFrom first (t :: ts) =
      ⟨t.construct, (numbersFrom (first + 1) t.namedChildren).toArray⟩ ::
        nodesFrom (first + 1) ts := rfl

@[simp] theorem length_nodesFrom (first : Nat) (ts : List Tree) :
    (nodesFrom first ts).length = ts.length := by
  simp [nodesFrom]

theorem getElem?_nodesFrom (first : Nat) (ts : List Tree) (i : Nat) :
    (nodesFrom first ts)[i]? = ts[i]?.map fun t =>
      ⟨t.construct, (numbersFrom (first + i + 1) t.namedChildren).toArray⟩ := by
  simp [nodesFrom, List.getElem?_zipIdx, Function.comp_def]

mutual
/-- The nodes of an outline for a tree, numbered recursively: its root has the number `first`, and what
is below the root follows in preorder. -/
def numbered (first : Nat) : Tree → List OutlineNode
  | leaf kind row blank text => [⟨construct (leaf kind row blank text), #[]⟩]
  | missing kind row => [⟨construct (missing kind row), #[]⟩]
  | branch kind ts =>
    let (numbers, nodes) := numberedAmong (first + 1) ts
    ⟨construct (branch kind ts), numbers.toArray⟩ :: nodes

/-- The numbers of the named ones among neighbouring trees, and the nodes for these. -/
def numberedAmong (first : Nat) : List Tree → List Nat × List OutlineNode
  | [] => ([], [])
  | t :: ts =>
    if t.kind.named then
      let nodes := numbered first t
      let (numbers, others) := numberedAmong (first + nodes.length) ts
      (first :: numbers, nodes ++ others)
    else numberedAmong first ts
end

mutual
theorem numbered_eq (first : Nat) : (t : Tree) → numbered first t = nodesFrom first t.namedNodes
  | leaf .. => rfl
  | missing .. => rfl
  | branch kind ts => by
    rw [numbered, numberedAmong_eq (first + 1) ts, namedNodes, nodesFrom_cons]
    rfl

theorem numberedAmong_eq (first : Nat) : (ts : List Tree) → numberedAmong first ts =
    (numbersFrom first (ts.filter (·.kind.named)), nodesFrom first (namedNodesAmong ts))
  | [] => rfl
  | t :: ts => by
    rw [numberedAmong, namedNodesAmong, List.filter_cons]
    split
    · dsimp only
      rw [numbered_eq first t, length_nodesFrom, numberedAmong_eq _ ts, numbersFrom,
        nodesFrom_append]
    · exact numberedAmong_eq first ts
end

/-- The numbers of neighbouring nodes lead to them. -/
theorem map_numbersFrom {nodes ts : List Tree} {first : Nat}
    (h : ts.flatMap namedNodes <+: nodes.drop first) :
    (numbersFrom first ts).map (nodes[·]?) = ts.map some := by
  induction ts generalizing first with
  | nil => rfl
  | cons t ts ih =>
    obtain ⟨rest, hrest⟩ := h
    rw [List.flatMap_cons, List.append_assoc] at hrest
    rw [numbersFrom, List.map_cons, List.map_cons]
    congr 1
    · have hhead := congrArg (·[0]?) hrest
      rw [namedNodes_eq t] at hhead
      simpa using hhead.symm
    · apply ih
      rw [← List.drop_drop, ← hrest, List.drop_left]
      exact List.prefix_append _ _

/-! ### Adding trees below a node -/

def withChildren (numbers : List Nat) (n : OutlineNode) : OutlineNode :=
  { n with children := n.children ++ numbers.toArray }

/-- An outline with further trees below a node, numbered behind what is there. -/
def grown (o : Outline) (parent : Nat) (ts : List Tree) : Outline where
  nodes := (o.nodes.toList.modify parent (withChildren (numbersFrom o.size ts)) ++
    nodesFrom o.size (ts.flatMap namedNodes)).toArray
  size_pos := by
    have hpos := o.size_pos
    simp
    omega

variable {o : Outline} {parent : Nat}

theorem eq_of_toList_nodes {o p : Outline} (h : o.nodes.toList = p.nodes.toList) : o = p := by
  cases o
  cases p
  congr 1
  exact Array.toList_inj.1 h

theorem withChildren_singleton (number : Nat) :
    withChildren [number] = fun n => { n with children := n.children.push number } := by
  funext n
  simp [withChildren]

theorem toList_nodes_push (hparent : parent < o.size) (construct : Construct) :
    (o.push parent construct).nodes.toList =
      o.nodes.toList.modify parent (withChildren [o.size]) ++ [⟨construct, #[]⟩] := by
  rw [← modify_append_of_lt hparent, withChildren_singleton]
  simp [Outline.push, Outline.size]

theorem toList_nodes_grown (o : Outline) (parent : Nat) (ts : List Tree) :
    (grown o parent ts).nodes.toList =
      o.nodes.toList.modify parent (withChildren (numbersFrom o.size ts)) ++
        nodesFrom o.size (ts.flatMap namedNodes) := rfl

@[simp] theorem size_grown (o : Outline) (parent : Nat) (ts : List Tree) :
    (grown o parent ts).size = o.size + (ts.flatMap namedNodes).length := by
  simp [grown, Outline.size]

theorem grown_nil (o : Outline) (parent : Nat) : grown o parent [] = o := by
  apply eq_of_toList_nodes
  apply List.ext_getElem?
  intro i
  simp [grown, numbersFrom, nodesFrom, withChildren, List.getElem?_modify]

theorem toList_nodes_grown_push (hparent : parent < o.size) (t : Tree) :
    (grown (o.push parent t.construct) o.size t.namedChildren).nodes.toList =
      o.nodes.toList.modify parent (withChildren [o.size]) ++ nodesFrom o.size t.namedNodes := by
  have hlength : (o.nodes.toList.modify parent (withChildren [o.size])).length = o.size := by
    simp [Outline.size]
  have hmodify := modify_concat_length (o.nodes.toList.modify parent (withChildren [o.size]))
    ⟨t.construct, #[]⟩ (withChildren (numbersFrom (o.size + 1) t.namedChildren))
  rw [hlength] at hmodify
  rw [toList_nodes_grown, toList_nodes_push hparent, Outline.size_push, hmodify, namedNodes_eq t,
    nodesFrom_cons, List.append_assoc]
  simp [withChildren]

/-- Adding a node with what is below it and then its younger siblings adds all of them. -/
theorem grown_cons (hparent : parent < o.size) (t : Tree) (ts : List Tree) :
    grown (grown (o.push parent t.construct) o.size t.namedChildren) parent ts =
      grown o parent (t :: ts) := by
  have hsize : (grown (o.push parent t.construct) o.size t.namedChildren).size =
      o.size + t.namedNodes.length := by
    rw [size_grown, Outline.size_push, namedNodes_eq t, List.length_cons]
    omega
  have hchildren : withChildren (numbersFrom (o.size + t.namedNodes.length) ts) ∘
      withChildren [o.size] = withChildren (numbersFrom o.size (t :: ts)) := by
    funext n
    simp [withChildren, numbersFrom]
  apply eq_of_toList_nodes
  rw [toList_nodes_grown, toList_nodes_grown_push hparent, hsize,
    modify_append_of_lt (by simpa [Outline.size] using hparent), List.modify_modify_eq, hchildren,
    toList_nodes_grown, List.flatMap_cons, nodesFrom_append, List.append_assoc]

theorem outlineSteps_append (hparent : parent < o.size) (ts : List Tree)
    (pending : List (Nat × Tree)) :
    outlineSteps o (ts.map (fun t => (parent, t)) ++ pending) =
      outlineSteps (grown o parent ts) pending := by
  induction hsize : sizes ts using Nat.strong_induction_on generalizing o parent ts pending with
  | _ size ih =>
    cases ts with
    | nil => rw [grown_nil, List.map_nil, List.nil_append]
    | cons t ts =>
      have hbelow := t.sizes_namedChildren_lt
      have hpos := t.size_pos
      rw [sizes] at hsize
      rw [List.map_cons, List.cons_append, outlineSteps,
        ih _ (by omega) (by simp) _ _ rfl, ih _ (by omega) (by simp; omega) _ _ rfl,
        grown_cons hparent]

theorem outline_eq (t : Tree) : t.outline = grown .root 0 t.namedChildren := by
  have hroot : 0 < Outline.root.size := by decide
  have hsteps := outlineSteps_append hroot t.namedChildren []
  rw [List.append_nil, outlineSteps] at hsteps
  exact hsteps

/-! ### The outline of a tree -/

theorem toList_nodes_outline (t : Tree) :
    t.outline.nodes.toList =
      ⟨.module, (numbersFrom 1 t.namedChildren).toArray⟩ ::
        nodesFrom 1 (t.namedChildren.flatMap namedNodes) := by
  rw [outline_eq, toList_nodes_grown]
  simp [Outline.root, Outline.size, withChildren]

theorem size_outline (t : Tree) : t.outline.size = t.namedNodes.length := by
  rw [Outline.size, ← Array.length_toList, toList_nodes_outline, namedNodes_eq]
  simp

/-- The node with a number, for the named node at that place in preorder. -/
theorem getElem?_nodes_outline {t n : Tree} {i : Nat} (h : t.namedNodes[i]? = some n) :
    t.outline.nodes[i]? = some ⟨if i = 0 then .module else n.construct,
      (numbersFrom (i + 1) n.namedChildren).toArray⟩ := by
  rw [← Array.getElem?_toList, toList_nodes_outline]
  rw [namedNodes_eq] at h
  cases i with
  | zero =>
    obtain rfl : t = n := by simpa using h
    simp
  | succ i =>
    rw [List.getElem?_cons_succ] at h
    rw [List.getElem?_cons_succ, getElem?_nodesFrom, h]
    simp [Nat.add_comm 1 i]

theorem construct_outline {t n : Tree} {i : Nat} (h : t.namedNodes[i]? = some n) :
    t.outline.construct i = if i = 0 then .module else n.construct := by
  rw [Outline.construct, getElem?_nodes_outline h]

theorem children_outline {t n : Tree} {i : Nat} (h : t.namedNodes[i]? = some n) :
    t.outline.children i = numbersFrom (i + 1) n.namedChildren := by
  rw [Outline.children, getElem?_nodes_outline h]

theorem map_children_outline {t n : Tree} {i : Nat} (h : t.namedNodes[i]? = some n) :
    (t.outline.children i).map (t.namedNodes[·]?) = n.namedChildren.map some := by
  have hsingle : [t].flatMap namedNodes = t.namedNodes := by simp
  rw [children_outline h]
  apply map_numbersFrom
  rw [← hsingle] at h
  have hprefix := namedNodes_prefix_drop h
  rw [hsingle, namedNodes_eq n] at hprefix
  rw [← List.drop_drop]
  obtain ⟨rest, hrest⟩ := hprefix
  exact ⟨rest, by rw [← hrest]; rfl⟩

/-- The outline of a tree is the one that recursive numbering gives, with a module for its root. It has
as many nodes as the tree has named nodes. Each node but the root stands for what the named node at its
place in preorder stands for, and its children are the named children of that one, in order, each
numbered behind everything below those before it. -/
theorem outline_in_preorder (t : Tree) :
    t.outline.nodes.toList =
        (t.numbered 0).modifyHead (fun root => { root with construct := .module }) ∧
      t.outline.size = t.namedNodes.length ∧ t.outline.construct 0 = .module ∧
      ∀ i n, t.namedNodes[i]? = some n →
        (i ≠ 0 → t.outline.construct i = n.construct) ∧
        t.outline.children i = numbersFrom (i + 1) n.namedChildren ∧
        (t.outline.children i).map (t.namedNodes[·]?) = n.namedChildren.map some := by
  have hroot : t.namedNodes[0]? = some t := by
    rw [namedNodes_eq]
    rfl
  refine ⟨?_, size_outline t, construct_outline hroot, ?_⟩
  · rw [numbered_eq, namedNodes_eq, nodesFrom_cons, toList_nodes_outline]
    rfl
  · intro i n h
    refine ⟨fun hi => ?_, children_outline h, map_children_outline h⟩
    rw [construct_outline h, if_neg hi]

/-- The tree of `f(x, g())` with a comment behind it. -/
def nestedCall : Tree :=
  let token (kind : Kind) (text : String) : Tree := .leaf kind 0 [] text.toList
  let inner : Tree := .branch .call [token .identifier "g",
    .branch .argumentList [token .symbol "(", token .symbol ")"]]
  .branch .module [.branch .expressionStatement [.branch .call [token .identifier "f",
    .branch .argumentList [token .symbol "(", token .identifier "x", token .symbol ",", inner,
      token .symbol ")"]]], token .comment "# done"]

theorem outline_in_preorder_nestedCall :
    nestedCall.outline.size = 10 ∧ nestedCall.outline.construct 7 = .name "g" ∧
      nestedCall.outline.children 4 = [5, 6] ∧ nestedCall.outline.children 0 = [1, 9] := by
  obtain ⟨-, hsize, -, hnode⟩ := outline_in_preorder nestedCall
  refine ⟨hsize, ?_, ?_, ?_⟩
  · exact (hnode 7 _ rfl).1 (by decide)
  · exact (hnode 4 _ rfl).2.1
  · exact (hnode 0 _ rfl).2.1

end CallAtlas.Python.Tree
