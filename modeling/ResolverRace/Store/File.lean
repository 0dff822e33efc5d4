import ResolverRace.Error
import ResolverRace.Json.Reader
import ResolverRace.Store.KeyMap

/-!
# Stores in a file

A file store keeps its values in memory and in one file. The file is read once, when the store is
opened; every change writes it anew: a sibling file is written first and then takes its place, so
that nobody reads half a file. The values in memory change before the file does.

* `FileStore.opened` — the store of a file, which may be missing or blank.
* `FileStore.put`, `FileStore.remove` — a change, with the disk after it.

A change may find that its file cannot be written, for reasons that the disk does not show.
-/

namespace ResolverRace

structure FileStore where
  path : String
  values : KeyMap
  deriving DecidableEq, Repr

namespace FileStore

/-- The values in the text of a file; a blank text has none. -/
def valuesOfText? (text : String) : Option KeyMap :=
  if (Text.trimChars text.toList).isEmpty then some .empty
  else (Json.parse? text).bind KeyMap.ofDatum?

/-- Opens the store of a file. -/
def opened (disk : Disk) (path : String) : Except Error FileStore :=
  match disk.readText path with
  | .ok text =>
    match valuesOfText? text with
    | some values => .ok ⟨path, values⟩
    | none => .error .encoding
  | .error .notFound => .ok ⟨path, .empty⟩
  | .error cause => .error (.store (.unreadable path cause))

/-- The file that is written before it takes the place of the store's file. -/
def siblingPath (path : String) : String := path ++ ".tmp"

/-- Writes values to the file of a store. -/
def flush (disk : Disk) (path : String) (values : KeyMap) : Disk × Except Error Unit :=
  match disk.makeParents path with
  | (disk, .error cause) => (disk, .error (.disk cause))
  | (disk, .ok ()) =>
    match disk.writeText (siblingPath path) values.text with
    | .error cause => (disk, .error (.store (.unwritable (siblingPath path) cause)))
    | .ok disk =>
      match disk.rename (siblingPath path) path with
      | .error cause => (disk, .error (.store (.irreplaceable path cause)))
      | .ok disk => (disk, .ok ())

def get? (s : FileStore) (key : String) : Option String := s.values.get? key

/-- Serves other values and writes them to the file. With a hindrance the disk stays as it is. -/
def replace (s : FileStore) (disk : Disk) (values : KeyMap) (hindrance : Option Error) :
    FileStore × Disk × Except Error Unit :=
  let (disk, result) :=
    match hindrance with
    | some e => (disk, .error e)
    | none => flush disk s.path values
  ({ s with values := values }, disk, result)

def put (s : FileStore) (disk : Disk) (key value : String) (hindrance : Option Error) :
    FileStore × Disk × Except Error Unit :=
  s.replace disk (s.values.insert key value) hindrance

/-- A key that is not there is removed without writing the file. -/
def remove (s : FileStore) (disk : Disk) (key : String) (hindrance : Option Error) :
    FileStore × Disk × Except Error Unit :=
  if s.values.contains key then s.replace disk (s.values.erase key) hindrance
  else (s, disk, .ok ())

end FileStore
end ResolverRace
