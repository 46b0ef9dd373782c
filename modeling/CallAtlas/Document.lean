import CallAtlas.Graph.Cycle
import CallAtlas.Json.Decode
import CallAtlas.Json.Value
/-!
# Documents

The two documents that carry results from one stage to the next: the graphs of a project, and the
list of its cycles. Both are pretty JSON. A cycle list is valid if every cycle has an edge and ends
where it starts.
-/

namespace CallAtlas

/-- The graphs of a project as they are written: successor lists by key. -/
structure GraphDocument where
  callGraph : OrderedMap String (List String)
  importGraph : OrderedMap String (List String)
deriving DecidableEq

namespace GraphDocument

def ofGraphs (calls imports : Digraph String) : GraphDocument := ⟨calls.toRows, imports.toRows⟩

def calls (d : GraphDocument) : Digraph String := .ofRows d.callGraph

def imports (d : GraphDocument) : Digraph String := .ofRows d.importGraph

def rowsJson (rows : OrderedMap String (List String)) : Json :=
  .object (rows.entries.map fun (k, items) => (k, .array (items.map .string)))

def write (d : GraphDocument) : String :=
  (Json.object [("call_graph", rowsJson d.callGraph), ("import_graph", rowsJson d.importGraph)]
    ).document

open Json Json.Read

/-- Reads successor lists; of several entries with one key the last counts. -/
def readRows : Json.Read (OrderedMap String (List String)) := do
  return .ofList (← readMap (readList readString))

/-- What is expected where a document should stand. -/
def expected : String := "struct GraphDocument"

/-- Reads a document in the form of a list of its two parts. -/
def readParts : Json.Read GraphDocument := do
  if ← moreItems true then
    let calls ← readRows
    let imports ← if ← moreItems false then readRows else pure ∅
    return ⟨calls, imports⟩
  else fail (.invalidLength 0 (expected ++ " with 2 elements"))

/-- Reads a member of a document into the parts read so far. -/
def readMember (parts : Option (OrderedMap String (List String)) ×
      Option (OrderedMap String (List String))) (key : String) :
    Json.Read (Option (OrderedMap String (List String)) ×
      Option (OrderedMap String (List String))) := do
  if key == "call_graph" then
    if parts.1.isSome then fail (.duplicateField key)
    else
      readColon
      return (some (← readRows), parts.2)
  else if key == "import_graph" then
    if parts.2.isSome then fail (.duplicateField key)
    else
      readColon
      return (parts.1, some (← readRows))
  else
    readColon
    ignoreValue
    return parts

/-- Reads a document. The import graph may be missing. -/
def reader : Json.Read GraphDocument := do
  match ← peekValue with
  | '[' => do
    skip
    located (thenEnd readParts endList)
  | '\x7b' => do
    skip
    located (thenEnd (do
      match ← readMembers readMember ((← remaining) + 1) true (none, none) with
      | (some calls, imports) => return ⟨calls, imports.getD ∅⟩
      | (none, _) => fail (.missingField "call_graph")) endObject)
  | _ => failType expected

def read (text : String) : Except Json.Failure GraphDocument := decode reader text

end GraphDocument

namespace CycleList

def write (cs : List (List String)) : String :=
  (Json.array (cs.map fun c => .array (c.map .string))).document

def read (text : String) : Except Json.Failure (List (List String)) :=
  Json.decode (Json.readList (Json.readList Json.readString)) text

/-- Why a list of closed paths is no list of cycles. -/
inductive Flaw where
  /-- The path with the given number has no edge. -/
  | tooShort (position : Nat)
  /-- The path with the given number is not closed. -/
  | notClosed (position : Nat)
deriving DecidableEq, Repr

def Flaw.message : Flaw → String
  | tooShort i => "cycle " ++ toString i ++ " has fewer than two elements"
  | notClosed i => "cycle " ++ toString i ++ " does not end where it starts"

/-- The first flaw of the paths from number `i` on. -/
def flawFrom (i : Nat) : List (List String) → Option Flaw
  | [] => none
  | c :: rest =>
    if c.length < 2 then some (.tooShort i)
    else if c.head? != c.getLast? then some (.notClosed i)
    else flawFrom (i + 1) rest

def flaw? (cs : List (List String)) : Option Flaw := flawFrom 0 cs

end CycleList

end CallAtlas
