import CallAtlas.Diagram.Layout
import CallAtlas.Path
import CallAtlas.Scope.Walk
import CallAtlas.Text.Quoted
import CallAtlas.Toml.Read
import CallAtlas.Toml.Text
/-!
# Settings

What a user can set once for all runs, with the TOML document that holds it. Every member of the
document may be missing, and members that mean nothing are passed over.
-/

namespace CallAtlas

structure Settings where
  output : Path := ⟨"."⟩
  /-- Patterns of entries that are left out. -/
  exclude : List String := []
  respectIgnore : Bool := false
  workers : Option Nat := none
  /-- The greatest depth of nodes that files may have. -/
  maxDepth : Nat := defaultMaxDepth
  format : Diagram.Format := default
  dedupeCycles : Bool := false
deriving DecidableEq, Repr, Inhabited

namespace Settings

open Toml (Members Span)

/-! ## Reading -/

/-- How a complaint names a value. -/
def described : Toml.Value → String
  | .string text => "string " ++ Text.quoted text
  | .integer n => "integer \x60" ++ toString n ++ "\x60"
  | .float shown => "floating point \x60" ++ shown ++ "\x60"
  | .boolean b => "boolean \x60" ++ (if b then "true" else "false") ++ "\x60"
  | .array _ => "sequence"
  | .tables _ => "sequence"
  | .datetime => "map"
  | .table _ _ => "map"

def wrongType {α : Type} (span : Span) (v : Toml.Value) (expected : String) :
    Except Toml.Fault α :=
  .error ⟨span, "invalid type: " ++ described v ++ ", expected " ++ expected⟩

def readString (expected : String) (span : Span) : Toml.Value → Except Toml.Fault String
  | .string text => .ok text
  | v => wrongType span v expected

def readBool (span : Span) : Toml.Value → Except Toml.Fault Bool
  | .boolean b => .ok b
  | v => wrongType span v "a boolean"

def readNat (span : Span) : Toml.Value → Except Toml.Fault Nat
  | .integer n =>
    if n < 0 then
      .error ⟨span, "invalid value: integer \x60" ++ toString n ++ "\x60, expected usize"⟩
    else .ok n.toNat
  | v => wrongType span v "usize"

def readStrings (span : Span) : Toml.Value → Except Toml.Fault (List String)
  | .array items => items.mapM fun (span, v) => readString "a string" span v
  | .tables elements =>
    elements.mapM fun (span, ms) => readString "a string" span (.table .defined ms)
  | v => wrongType span v "a sequence"

def readFormatName (span : Span) (name : String) : Except Toml.Fault Diagram.Format :=
  match Diagram.Format.ofName? name with
  | some format => .ok format
  | none =>
    .error ⟨span, "unknown variant \x60" ++ name ++ "\x60, expected \x60mermaid\x60 or \x60dot\x60"⟩

/-- Checks that a format named by the only member of a table has no contents. -/
def checkEmpty (span : Span) : Toml.Value → Except Toml.Fault Unit
  | .table _ [] => .ok ()
  | .table _ _ => .error ⟨span, "expected empty table"⟩
  | .array [] => .ok ()
  | .array _ => .error ⟨span, "expected empty table"⟩
  | .tables _ => .error ⟨span, "expected empty array"⟩
  | v => .error ⟨span, "expected table, found " ++ v.typeName⟩

/-- The format that a value is: its name, or a table whose only member has the name. -/
def readFormat (span : Span) : Toml.Value → Except Toml.Fault Diagram.Format
  | .string name => readFormatName span name
  | .table _ [] => .error ⟨span, "wanted exactly 1 element, found 0 elements"⟩
  | .table _ [(name, inner, v)] => do
    let format ← readFormatName inner name
    checkEmpty inner v
    return format
  | .table _ _ => .error ⟨span, "wanted exactly 1 element, more than 1 element"⟩
  | _ => .error ⟨span, "wanted string or table"⟩

def setMember (s : Settings) (key : String) (span : Span) (v : Toml.Value) :
    Except Toml.Fault Settings := do
  match key with
  | "output_dir" => return { s with output := ⟨← readString "path string" span v⟩ }
  | "exclude" => return { s with exclude := ← readStrings span v }
  | "respect_ignore" => return { s with respectIgnore := ← readBool span v }
  | "workers" => return { s with workers := some (← readNat span v) }
  | "max_depth" => return { s with maxDepth := ← readNat span v }
  | "format" => return { s with format := ← readFormat span v }
  | "dedupe_cycles" => return { s with dedupeCycles := ← readBool span v }
  | _ => return s

def ofMembers (ms : Members) : Except Toml.Fault Settings :=
  ms.foldlM (fun s (key, span, v) => s.setMember key span v) {}

def read (text : String) : Except Toml.Fault Settings := do ofMembers (← Toml.read text)

/-! ## Writing -/

/-- The greatest number that a document can hold. -/
def maxNumber : Nat := 0x7FFFFFFFFFFFFFFF

def fits (s : Settings) : Bool := s.workers.getD 0 ≤ maxNumber && s.maxDepth ≤ maxNumber

def writeBool (b : Bool) : String := if b then "true" else "false"

/-- The members of the document in order with their written values. The number of workers is left
out if it is not set. -/
def writtenMembers (s : Settings) : List (String × String) :=
  [("output_dir", Toml.Text.write s.output.text),
    ("exclude", Toml.Text.writeList s.exclude),
    ("respect_ignore", writeBool s.respectIgnore)] ++
  (s.workers.map fun n => ("workers", toString n)).toList ++
  [("max_depth", toString s.maxDepth),
    ("format", Toml.Text.write s.format.name),
    ("dedupe_cycles", writeBool s.dedupeCycles)]

def write (s : Settings) : String :=
  String.join (s.writtenMembers.map fun (key, value) => key ++ " = " ++ value ++ "\n")

end Settings

end CallAtlas
