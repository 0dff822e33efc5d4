import ResolverRace.Disk
import ResolverRace.Source.Basic

/-!
# Errors of a selection

Everything that can go wrong around a selection, by cause, and the text shown for it. The ways a
race can end are no errors.
-/

namespace ResolverRace

/-- Why settings are refused. -/
inductive SettingsError where
  | concurrency (given : Nat)
  | probeTimeout (given : Nat)
  | sessionTimeout
  | emptyListId
  | duplicateListId (id : String)
  deriving DecidableEq, Repr

namespace SettingsError

def message : SettingsError → String
  | .concurrency given => s!"concurrency {given} is out of range (1-10)"
  | .probeTimeout given => s!"probe_timeout_ms {given} is out of range (500-10000)"
  | .sessionTimeout => "session_timeout_ms must be positive"
  | .emptyListId => "list id must not be empty"
  | .duplicateListId id => s!"duplicate list id '{id}'"

end SettingsError

/-- Why a document is no settings document. -/
inductive DocumentError where
  /-- It breaks the notation, or a value has a wrong type. -/
  | malformed
  /-- The name of the source is wrong. -/
  | badSource (cause : PoolError)
  deriving DecidableEq, Repr

namespace DocumentError

def message : DocumentError → String
  | .malformed => "malformed document"
  | .badSource cause => cause.message

end DocumentError

/-- What is done with a key of a store. -/
inductive Access where
  | get
  | put
  | remove
  /-- The file of a store is written, because the key has changed. -/
  | flush
  deriving DecidableEq, Repr

namespace Access

def text : Access → String
  | .get => "get"
  | .put => "put"
  | .remove => "remove"
  | .flush => "flush"

end Access

/-- Why a store cannot be read or written. -/
inductive StoreError where
  | refused (access : Access) (key : String)
  | unreadable (path : String) (cause : DiskError)
  | unwritable (path : String) (cause : DiskError)
  | irreplaceable (path : String) (cause : DiskError)
  deriving DecidableEq, Repr

namespace StoreError

def message : StoreError → String
  | .refused access key => s!"{access.text} {key} refused"
  | .unreadable path cause => s!"failed to read {path}: {cause.message}"
  | .unwritable path cause => s!"failed to write {path}: {cause.message}"
  | .irreplaceable path cause => s!"failed to replace {path}: {cause.message}"

end StoreError

inductive Error where
  | settings (cause : SettingsError)
  | document (cause : DocumentError)
  | disk (cause : DiskError)
  | pool (cause : PoolError)
  | store (cause : StoreError)
  /-- A stored value is not what its key stands for. -/
  | encoding
  | alreadyRacing
  deriving DecidableEq, Repr

namespace Error

def message : Error → String
  | .settings cause => "configuration error: " ++ cause.message
  | .document cause => "failed to parse config: " ++ cause.message
  | .disk cause => "I/O error: " ++ cause.message
  | .pool cause => "pool error: " ++ cause.message
  | .store cause => "state store error: " ++ cause.message
  | .encoding => "state encoding error: unexpected value"
  | .alreadyRacing => "a resolver selection is already running"

/-- The settings are to blame. -/
def blamesSettings : Error → Bool
  | .settings _ | .document _ | .pool (.unknownList _) => true
  | _ => false

/-- The error below this one, as text. -/
def cause? : Error → Option String
  | .document cause => some cause.message
  | .disk cause => some cause.message
  | .pool cause => some cause.message
  | .encoding => some "unexpected value"
  | .settings _ | .store _ | .alreadyRacing => none

end Error
end ResolverRace
