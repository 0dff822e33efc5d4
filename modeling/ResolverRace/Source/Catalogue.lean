import ResolverRace.Disk
import ResolverRace.Pool.Shuffle
import ResolverRace.Source.Basic
import ResolverRace.Source.UserList

/-!
# The catalogue of lists

A catalogue holds the entries of the built-in list and the lists of the user's, and makes a pool
of either. The built-in list may be shuffled; then the well-known resolvers in it move to the
front in a fixed order. A list of the user's keeps its order.

* `entriesOfText` — the entries of a list text: lines that are neither blank nor comments.
* `Catalogue.load` — the pool of a source.
-/

namespace ResolverRace

/-- The entries of a list text: its lines, trimmed, without blank lines and `#` comments. -/
def entriesOfText (text : String) : List String :=
  let kept := (Text.lines text.toList).map Text.trimChars |>.filter
    fun line => !line.isEmpty && line.head? ≠ some '#'
  kept.map String.ofList

/-- The resolvers to try if nothing else is configured. -/
def bundledEntries : List String :=
  ["8.8.8.8", "8.8.4.4", "1.1.1.1", "1.0.0.1", "9.9.9.9", "149.112.112.112", "208.67.222.222",
    "208.67.220.220", "94.140.14.14", "94.140.15.15", "76.76.2.0", "76.76.10.0", "185.228.168.9",
    "185.228.169.9", "77.88.8.8", "77.88.8.1", "64.6.64.6", "64.6.65.6", "84.200.69.80",
    "84.200.70.40", "8.26.56.26", "8.20.247.20", "195.46.39.39", "195.46.39.40", "156.154.70.1",
    "156.154.71.1", "4.2.2.1", "4.2.2.2", "180.76.76.76", "223.5.5.5", "223.6.6.6",
    "119.29.29.29"]

/-- The entries in use when the file with the built-in list cannot be read. -/
def fallbackEntries : List String := ["1.1.1.1", "8.8.8.8", "9.9.9.9"]

/-- An IPv4 resolver on the default port. -/
def wellKnown (a b c d : UInt8) : Address := ⟨.ip (.v4 ⟨a, b, c, d⟩), Address.defaultPort⟩

/-- Well-known public resolvers, the one to try first in front. -/
def preferred : List Address :=
  [wellKnown 8 8 8 8, wellKnown 8 8 4 4, wellKnown 1 1 1 1, wellKnown 1 0 0 1, wellKnown 9 9 9 9,
    wellKnown 149 112 112 112, wellKnown 208 67 222 222, wellKnown 208 67 220 220]

namespace Pool

/-- Moves the well-known resolvers that are there to the front, in their order. -/
def preferWellKnown (p : Pool) : Pool := preferred.reverse.foldl promote p

end Pool

structure Catalogue where
  /-- Entries of the built-in list, in the order of its file. -/
  builtin : List String
  lists : List UserList
  /-- The built-in list is shuffled when it is loaded. -/
  shuffles : Bool
  deriving DecidableEq

namespace Catalogue

/-- With the bundled list as built-in list. -/
def bundled (lists : List UserList) : Catalogue := ⟨bundledEntries, lists, true⟩

/-- With the built-in list given as text. -/
def ofText (text : String) (lists : List UserList) : Catalogue := ⟨entriesOfText text, lists, true⟩

/-- With the built-in list in a file, or the fallback entries if it cannot be read. -/
def ofFile (disk : Disk) (path : String) (lists : List UserList) : Catalogue :=
  match disk.readText path with
  | .ok text => ofText text lists
  | .error _ => ⟨fallbackEntries, lists, true⟩

/-- The first list of an id. -/
def find? (c : Catalogue) (id : String) : Option UserList := c.lists.find? (·.id = id)

/-- Replaces the first list with the id of `l`. -/
def replaceFirst (l : UserList) : List UserList → List UserList
  | [] => []
  | m :: ms => if m.id = l.id then l :: ms else m :: replaceFirst l ms

/-- Replaces the list with the same id where it stands, or adds the list at the end. -/
def upsert (c : Catalogue) (l : UserList) : Catalogue :=
  if (c.find? l.id).isSome then { c with lists := replaceFirst l c.lists }
  else { c with lists := c.lists ++ [l] }

/-- Removes the first list of an id. -/
def remove (c : Catalogue) (id : String) : Catalogue :=
  { c with lists := c.lists.eraseP (·.id = id) }

/-- The name of a source for people. -/
def displayName (c : Catalogue) : Source → String
  | .builtin => "Built-in resolvers"
  | .custom id =>
    match c.find? id with
    | some l => l.name
    | none => s!"Unknown list '{id}'"

/-- Whether a source can be loaded. -/
def resolves (c : Catalogue) : Source → Bool
  | .builtin => true
  | .custom id => (c.find? id).isSome

/-- Makes the pool of a source. Only the built-in list draws random words. -/
def load (c : Catalogue) (source : Source) (s : Random.Stream) :
    Except PoolError (Pool.Loaded × Random.Stream) :=
  match source with
  | .builtin =>
    let loaded := Pool.ofEntries c.builtin .builtin
    let (pool, s) := if c.shuffles then loaded.pool.shuffle s else (loaded.pool, s)
    .ok ({ loaded with pool := pool.preferWellKnown }, s)
  | .custom id =>
    match c.find? id with
    | some l => .ok (Pool.ofEntries l.resolvers (.custom l.id), s)
    | none => .error (.unknownList id)

end Catalogue
end ResolverRace
