import ResolverRace.Text.Blank

/-!
# A small file tree

Files and directories below one root, as far as settings and state files need them: reading and
writing whole texts, making directories, replacing one file by another. A file holds a text, or
bytes that are no text. Paths that do not begin with a slash start from a working directory.
Failures have the causes, and the wording, that the operating system gives; a failure can leave
behind what was done before it.

* `Disk.node?_unlink`, `Disk.node?_set` — what is found after a change.
* `Disk.step` — what a name means in a directory.
* `Disk.locate`, `Disk.above` — the place that a path means, and the directory that holds it.
* `Disk.makeAll` — makes directories, the deepest first where that is possible.
-/

namespace ResolverRace

inductive DiskError where
  | notFound
  | busy
  | alreadyExists
  | notDirectory
  | isDirectory
  | nameTooLong
  | nulInName
  | notText
  deriving DecidableEq, Repr

namespace DiskError

def message : DiskError → String
  | .notFound => "No such file or directory (os error 2)"
  | .busy => "Device or resource busy (os error 16)"
  | .alreadyExists => "File exists (os error 17)"
  | .notDirectory => "Not a directory (os error 20)"
  | .isDirectory => "Is a directory (os error 21)"
  | .nameTooLong => "File name too long (os error 36)"
  | .nulInName => "file name contained an unexpected NUL byte"
  | .notText => "stream did not contain valid UTF-8"

end DiskError

/-- What stands at a place of the tree. A file without text holds bytes that are not UTF-8. -/
inductive Node where
  | file (content : Option String)
  | directory
  deriving DecidableEq, Repr

/-- A place in the tree: the names from the root down. -/
abbrev Place := List String

structure Disk where
  /-- The nodes below the root, each with its place. -/
  nodes : List (Place × Node)
  /-- The working directory. -/
  home : Place
  deriving DecidableEq, Repr

namespace Disk

/-- Nothing below the root, which is the working directory. -/
def empty : Disk := ⟨[], []⟩

/-- The node at a place; the root is a directory. -/
def node? (d : Disk) (place : Place) : Option Node :=
  if place = [] then some .directory else d.nodes.lookup place

/-- Takes away what stands at a place. -/
def unlink (d : Disk) (place : Place) : Disk :=
  { d with nodes := d.nodes.filter (·.1 ≠ place) }

/-- Puts a node at a place, over what was there. -/
def set (d : Disk) (place : Place) (node : Node) : Disk :=
  { d with nodes := (place, node) :: (d.unlink place).nodes }

theorem lookup_unlink (nodes : List (Place × Node)) (place other : Place) :
    (nodes.filter (·.1 ≠ place)).lookup other =
      if other = place then none else nodes.lookup other := by
  induction nodes with
  | nil => simp
  | cons entry rest ih =>
    obtain ⟨key, node⟩ := entry
    rw [List.filter_cons]
    grind

theorem node?_unlink (d : Disk) {place other : Place} (h : other ≠ []) :
    (d.unlink place).node? other = if other = place then none else d.node? other := by
  rw [node?, node?, if_neg h, if_neg h]
  exact lookup_unlink d.nodes place other

theorem node?_set (d : Disk) {place other : Place} {node : Node} (h : other ≠ []) :
    (d.set place node).node? other = if other = place then some node else d.node? other := by
  rw [node?, node?, if_neg h, if_neg h, set, List.lookup_cons]
  by_cases ho : other = place
  · simp [ho]
  · rw [beq_eq_false_iff_ne.2 ho, if_neg ho]
    exact (lookup_unlink d.nodes place other).trans (if_neg ho)

/-- Takes away a place and everything below it. -/
def erase (d : Disk) (place : Place) : Disk :=
  { d with nodes := d.nodes.filter fun entry => !place.isPrefixOf entry.1 }

/-! ## Paths -/

/-- The names of a path, `.` and `..` among them. -/
def names (path : String) : List String :=
  ((Text.splitAtEach '/' path.toList).map String.ofList).filter (· ≠ "")

/-- The names of the directory that a path is in; `.` is no part of a path here. -/
def parentNames (path : String) : List String := ((names path).filter (· ≠ ".")).dropLast

/-- Where a path starts. -/
def root (d : Disk) (path : String) : Place :=
  if path.toList.head? = some '/' then [] else d.home

/-- The path asks for a directory. -/
def endsInSlash (path : String) : Bool := path.toList.getLast? = some '/'

/-- The longest name a directory can hold, in bytes. -/
def maxName : Nat := 255

/-- The longest path, in bytes. -/
def maxPath : Nat := 4095

/-- Where a path starts, if it can be a path. -/
def start (d : Disk) (path : String) : Except DiskError Place :=
  if path.toList.contains '\x00' then .error .nulInName
  else if path = "" then .error .notFound
  else if maxPath < path.utf8ByteSize then .error .nameTooLong
  else .ok (d.root path)

/-- Something can only be looked up in a directory. -/
def checkDirectory (d : Disk) (here : Place) : Except DiskError Unit :=
  match d.node? here with
  | none => .error .notFound
  | some (.file _) => .error .notDirectory
  | some .directory => .ok ()

/-- What a name means at a place, which must be a directory. The new place may be free. -/
def step (d : Disk) (here : Place) (name : String) : Except DiskError Place := do
  d.checkDirectory here
  if name = "." then return here
  else if name = ".." then return here.dropLast
  else if maxName < name.utf8ByteSize then throw .nameTooLong
  else return here ++ [name]

/-- Follows names from a place. -/
def walk (d : Disk) : Place → List String → Except DiskError Place
  | here, [] => .ok here
  | here, name :: rest => do d.walk (← d.step here name) rest

/-- The place that a path means; the place itself may be free. -/
def locate (d : Disk) (path : String) : Except DiskError Place := do
  d.walk (← d.start path) (names path)

/-- The directory before the last of some names, and that name, unless it is `.` or `..` or
missing. -/
def above (d : Disk) (here : Place) (names : List String) :
    Except DiskError (Place × Option String) := do
  let here ← d.walk here names.dropLast
  d.checkDirectory here
  return (here, names.getLast?.filter fun name => name ≠ "." && name ≠ "..")

/-! ## Files -/

/-- The text of a file. -/
def readText (d : Disk) (path : String) : Except DiskError String := do
  let place ← d.locate path
  match d.node? place with
  | none => .error .notFound
  | some .directory => .error .isDirectory
  | some (.file content) =>
    if endsInSlash path then .error .notDirectory
    else
      match content with
      | some text => .ok text
      | none => .error .notText

/-- Writes a file, over an older one. -/
def writeNode (d : Disk) (path : String) (content : Option String) : Except DiskError Disk := do
  match ← d.above (← d.start path) (names path) with
  | (_, none) => .error .isDirectory
  | (here, some name) =>
    if endsInSlash path then .error .isDirectory
    else
      let place ← d.step here name
      match d.node? place with
      | some .directory => .error .isDirectory
      | _ => .ok (d.set place (.file content))

def writeText (d : Disk) (path : String) (text : String) : Except DiskError Disk :=
  d.writeNode path (some text)

/-- Gives a file a new path, over what was there; a directory is not replaced. -/
def rename (d : Disk) (source target : String) : Except DiskError Disk := do
  let (here, old) ← d.above (← d.start source) (names source)
  let (there, new) ← d.above (← d.start target) (names target)
  match old, new with
  | some old, some new =>
    let source ← d.step here old
    match d.node? source with
    | none => .error .notFound
    | some node =>
      let place ← d.step there new
      if endsInSlash target then .error .notDirectory
      else
        match d.node? place with
        | some .directory => .error .isDirectory
        | _ => .ok ((d.unlink source).set place node)
  | _, _ => .error .busy

/-! ## Directories -/

/-- Makes one directory, which must not be there. -/
def make (d : Disk) (here : Place) (names : List String) : Except DiskError Disk := do
  match ← d.above here names with
  | (_, none) => .error .alreadyExists
  | (here, some name) =>
    let place ← d.step here name
    if (d.node? place).isSome then .error .alreadyExists else .ok (d.set place .directory)

/-- What there is to say of a failure to make a directory: nothing, if the directory is there. -/
def excuse (d : Disk) (here : Place) (names : List String) (e : DiskError) :
    Except DiskError Unit :=
  match d.walk here names with
  | .ok place => if d.node? place = some .directory then .ok () else .error e
  | .error _ => .error e

/-- Makes a directory that may be there already. -/
def ensure (d : Disk) (here : Place) (names : List String) : Disk × Except DiskError Unit :=
  match d.make here names with
  | .ok d => (d, .ok ())
  | .error e => (d, d.excuse here names e)

/-- Makes a directory, given by its names in reverse. If the one above it is missing that one is
made first. Directories that were made stay, also after a failure. -/
def makeAll (d : Disk) (here : Place) : List String → Disk × Except DiskError Unit
  | [] => (d, .ok ())
  | name :: above =>
    let names := above.reverse ++ [name]
    match d.make here names with
    | .error .notFound =>
      match d.makeAll here above with
      | (d, .ok ()) => d.ensure here names
      | failed => failed
    | _ => d.ensure here names

/-- Makes the directory of these names below the start of a path. -/
def makeNames (d : Disk) (path : String) (names : List String) : Disk × Except DiskError Unit :=
  if path.toList.contains '\x00' then (d, .error .nulInName)
  else d.makeAll (d.root path) names.reverse

/-- Makes a directory and those above it. -/
def makeDirectories (d : Disk) (path : String) : Disk × Except DiskError Unit :=
  d.makeNames path ((names path).filter (· ≠ "."))

/-- Makes the directories above a file. -/
def makeParents (d : Disk) (path : String) : Disk × Except DiskError Unit :=
  d.makeNames path (parentNames path)

end Disk
end ResolverRace
