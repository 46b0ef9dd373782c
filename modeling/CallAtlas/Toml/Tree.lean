import CallAtlas.Toml.Value
/-!
# Building TOML tables

Where keys and headers put their values. A table has every key once; a table that is written in one
way is not extended in another.
-/

namespace CallAtlas.Toml

/-- Why a key or header cannot stand where it stands. -/
inductive Conflict where
  /-- The key is in the table with the given path. -/
  | duplicateIn (key : String) (table : List String)
  /-- The key has a value that is no table of the right kind. -/
  | duplicate (key : String)
  /-- The beginning of a dotted key has a value of the given type. -/
  | noTable (path : List String) (type : String)
deriving DecidableEq, Repr

def Conflict.message : Conflict → String
  | duplicateIn key [] => "duplicate key \x60" ++ key ++ "\x60 in document root"
  | duplicateIn key table =>
    "duplicate key \x60" ++ key ++ "\x60 in table \x60" ++ ".".intercalate table ++ "\x60"
  | duplicate key => "duplicate key \x60" ++ key ++ "\x60"
  | noTable path type =>
    "dotted key \x60" ++ ".".intercalate path ++ "\x60 attempted to extend non-table type (" ++
      type ++ ")"

def Value.typeName : Value → String
  | string _ => "string"
  | integer _ => "integer"
  | float _ => "float"
  | boolean _ => "boolean"
  | datetime => "datetime"
  | array _ => "array"
  | table .inline _ => "inline table"
  | table _ _ => "table"
  | tables _ => "array of tables"

namespace Members

def get? (ms : Members) (key : String) : Option (Span × Value) := ms.lookup key

/-- The members with another value for a key that is there. -/
def replace (ms : Members) (key : String) (v : Value) : Members :=
  ms.map fun (k, span, w) => if k == key then (k, span, v) else (k, span, w)

def append (ms : Members) (key : String) (span : Span) (v : Value) : Members :=
  ms ++ [(key, span, v)]

/-- Puts a value below a dotted key. `passed` is the part of the key above, and `table` the path of
the table, which a value in braces does not have. -/
def insertAt (table : Option (List String)) (passed : List String) (key : Key)
    (value : Span × Value) : (path : List Key) → Members → Except Conflict Members
  | [], ms =>
    match ms.get? key.name with
    | some _ =>
      .error (match table with
        | some path => .duplicateIn key.name path
        | none => .duplicate key.name)
    | none => .ok (Members.append ms key.name value.1 value.2)
  | k :: path, ms =>
    match ms.get? k.name with
    | none => do
      let inner ← insertAt table (passed ++ [k.name]) key value path []
      .ok (Members.append ms k.name k.span (.table .dotted inner))
    | some (_, .table .dotted inner) => do
      let inner ← insertAt table (passed ++ [k.name]) key value path inner
      .ok (ms.replace k.name (.table .dotted inner))
    | some (_, .table .implied inner) =>
      if path.isEmpty then .error (.duplicate key.name)
      else do
        let inner ← insertAt table (passed ++ [k.name]) key value path inner
        .ok (ms.replace k.name (.table .implied inner))
    | some (_, .table .defined _) => .error (.duplicate k.name)
    | some (_, .tables elements) =>
      match path, elements.reverse with
      | _ :: _, (span, last) :: before => do
        let inner ← insertAt table (passed ++ [k.name]) key value path last
        .ok (ms.replace k.name (.tables (before.reverse ++ [(span, inner)])))
      | _, _ => .error (.duplicate key.name)
    | some (_, v) =>
      match table, v with
      | none, .table .inline _ => .error (.duplicate k.name)
      | _, v => .error (.noTable (passed ++ [k.name]) v.typeName)

/-- Applies `f` to the table that a path of headers leads to. Missing tables on the way are
implied. -/
def alterAt (f : Members → Except Conflict Members) (passed : List String) :
    (path : List Key) → Members → Except Conflict Members
  | [], ms => f ms
  | k :: path, ms =>
    match ms.get? k.name with
    | none => do
      let inner ← alterAt f (passed ++ [k.name]) path []
      .ok (Members.append ms k.name k.span (.table .implied inner))
    | some (_, .tables elements) =>
      match elements.reverse with
      | (span, last) :: before => do
        let inner ← alterAt f (passed ++ [k.name]) path last
        .ok (ms.replace k.name (.tables (before.reverse ++ [(span, inner)])))
      | [] => .error (.duplicate k.name)
    | some (_, .table .inline _) => .error (.noTable (passed ++ [k.name]) "inline table")
    | some (_, .table kind inner) => do
      let inner ← alterAt f (passed ++ [k.name]) path inner
      .ok (ms.replace k.name (.table kind inner))
    | some (_, v) => .error (.noTable (passed ++ [k.name]) v.typeName)

/-- Opens the table of a header. A table that so far was only implied keeps its members. -/
def openTable (path : List Key) (span : Span) (ms : Members) : Except Conflict Members :=
  match path.getLast? with
  | none => .ok ms
  | some key =>
    let above := path.dropLast
    alterAt (fun ms =>
      match ms.get? key.name with
      | none => .ok (Members.append ms key.name span (.table .defined []))
      | some (_, .table .implied inner) =>
        let others : Members := ms.filter fun m => m.1 != key.name
        .ok (Members.append others key.name span (.table .defined inner))
      | some _ => .error (.duplicateIn key.name (above.map (·.name)))) [] above ms

/-- Opens the next table of a header in double brackets. -/
def openElement (path : List Key) (span : Span) (ms : Members) : Except Conflict Members :=
  match path.getLast? with
  | none => .ok ms
  | some key =>
    let above := path.dropLast
    alterAt (fun ms =>
      match ms.get? key.name with
      | none => .ok (Members.append ms key.name span (.tables [(span, [])]))
      | some (_, .tables elements) =>
        .ok (ms.replace key.name (.tables (elements ++ [(span, [])])))
      | some _ => .error (.duplicateIn key.name (above.map (·.name)))) [] above ms

end Members

end CallAtlas.Toml
