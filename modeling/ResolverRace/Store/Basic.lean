import ResolverRace.Store.File

/-!
# State stores

What is remembered between selections goes into a store of texts by key, held in memory or in a
file. A store may be told to refuse accesses; a refused access touches nothing. Where writing the file
is refused, the change of the key takes place in memory, and the disk stays as it is.
-/

namespace ResolverRace

/-- Where the values of a store are. -/
inductive Backing where
  | memory (values : KeyMap)
  | file (store : FileStore)
  deriving DecidableEq, Repr

/-- An access that is refused, for one key or for every key. -/
structure Refusal where
  access : Access
  key : Option String
  deriving DecidableEq, Repr

namespace Refusal

def covers (r : Refusal) (access : Access) (key : String) : Bool :=
  r.access = access && (r.key = none || r.key = some key)

end Refusal

/-- A store, the accesses it refuses, and the disk it writes to. -/
structure Store where
  backing : Backing
  refusals : List Refusal
  disk : Disk
  deriving DecidableEq, Repr

namespace Store

/-- The key of the resolver that won last. -/
def lastKey : String := "last_successful"

/-- The key of the demoted resolvers. -/
def demotedKey : String := "demoted"

/-- The key of the selected source. -/
def sourceKey : String := "selected_source"

/-- The key of the user's lists. -/
def listsKey : String := "custom_lists"

/-- A store in memory. -/
def inMemory (values : KeyMap) (disk : Disk) : Store := ⟨.memory values, [], disk⟩

def refuses (s : Store) (access : Access) (key : String) : Bool :=
  s.refusals.any (·.covers access key)

/-- The values that are served. -/
def values (s : Store) : KeyMap :=
  match s.backing with
  | .memory values => values
  | .file store => store.values

/-- What keeps the file from being written after a change of a key. -/
def hindrance (s : Store) (key : String) : Option Error :=
  if s.refuses .flush key then some (.store (.refused .flush key)) else none

/-- Writes without asking whether the access is refused. -/
def putAnyway (s : Store) (key value : String) : Store × Except Error Unit :=
  match s.backing with
  | .memory values => ({ s with backing := .memory (values.insert key value) }, .ok ())
  | .file store =>
    let (store, disk, result) := store.put s.disk key value (s.hindrance key)
    ({ s with backing := .file store, disk := disk }, result)

def removeAnyway (s : Store) (key : String) : Store × Except Error Unit :=
  match s.backing with
  | .memory values => ({ s with backing := .memory (values.erase key) }, .ok ())
  | .file store =>
    let (store, disk, result) := store.remove s.disk key (s.hindrance key)
    ({ s with backing := .file store, disk := disk }, result)

def get (s : Store) (key : String) : Except Error (Option String) :=
  if s.refuses .get key then .error (.store (.refused .get key)) else .ok (s.values.get? key)

def put (s : Store) (key value : String) : Store × Except Error Unit :=
  if s.refuses .put key then (s, .error (.store (.refused .put key))) else s.putAnyway key value

/-- Removes a key; a key that is not there is no error. -/
def remove (s : Store) (key : String) : Store × Except Error Unit :=
  if s.refuses .remove key then (s, .error (.store (.refused .remove key)))
  else s.removeAnyway key

/-- The store as the next process finds it: values in memory stay, a file is read again. -/
def reopened (s : Store) : Except Error Store :=
  match s.backing with
  | .memory _ => .ok s
  | .file store => (FileStore.opened s.disk store.path).map fun store =>
      { s with backing := .file store }

end Store
end ResolverRace
