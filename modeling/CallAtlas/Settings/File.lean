import CallAtlas.Files.FileTree
import CallAtlas.Settings
/-!
# Settings files

The file that holds settings. A file that is named must exist; the one that is looked for otherwise
may be missing. An existing file is only written over if that is asked for.
-/

namespace CallAtlas

/-- Why settings cannot be loaded or saved. -/
inductive SettingsFailure where
  | notFound (path : Path)
  | unreadable (path : Path) (fault : Files.Fault)
  /-- The file holds no settings, as the report says. -/
  | invalid (path : Path) (report : String)
  | taken (path : Path)
  | outOfRange
  | unwritable (fault : Files.Fault)
deriving DecidableEq, Repr

namespace SettingsFailure

def message : SettingsFailure → String
  | notFound p => "config file not found: " ++ p.text
  | unreadable p _ => "failed to read " ++ p.text
  | invalid p _ => "invalid config " ++ p.text
  | taken p => "config already exists at " ++ p.text ++ " (use --force to overwrite)"
  | outOfRange => "out-of-range value for u64 type"
  | unwritable fault => fault.message

/-- What lies behind a failure, where that is not said already. -/
def cause? : SettingsFailure → Option String
  | unreadable _ fault => some fault.message
  | invalid _ report => some report
  | _ => none

/-- The wording of a failure with what lies behind it. -/
def messageWithCause (e : SettingsFailure) : String :=
  match e.cause? with
  | some cause => e.message ++ ": " ++ cause
  | none => e.message

end SettingsFailure

namespace Settings

/-- The file that is looked for unless another one is named. -/
def defaultFile : Path := ⟨"callmap.toml"⟩

def loadFrom (t : FileTree) (path : Path) : Except SettingsFailure Settings :=
  match t.readText path with
  | .error fault => .error (.unreadable path fault)
  | .ok text =>
    match read text with
    | .error fault => .error (.invalid path (fault.report text))
    | .ok s => .ok s

/-- The settings in the file that is named, or else in the default file if it is there. -/
def load (t : FileTree) (named : Option Path) : Except SettingsFailure Settings :=
  match named with
  | some path => if t.hasEntry path then loadFrom t path else .error (.notFound path)
  | none => if t.hasEntry defaultFile then loadFrom t defaultFile else .ok {}

/-- Saves settings in a file. A file that exists is only touched if that is asked for, and no file is
touched before the settings are known to fit. -/
def saving (s : Settings) (path : Path) (force : Bool) :
    ExceptT SettingsFailure (StateM FileTree) Unit := do
  if (← get).hasEntry path && !force then throw (.taken path)
  if !s.fits then throw .outOfRange
  match (← get).writeText path s.write with
  | .ok t => set t
  | .error fault => throw (.unwritable fault)

def save (s : Settings) (t : FileTree) (path : Path) (force : Bool) :
    Except SettingsFailure FileTree :=
  match (s.saving path force).run t with
  | (.ok (), t) => .ok t
  | (.error e, _) => .error e

end Settings

end CallAtlas
