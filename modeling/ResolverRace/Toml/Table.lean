import ResolverRace.Datum.Basic

/-!
# Tables of TOML

A document is a table of tables that grows with each line. Headers and dotted keys may name
tables that do not exist yet, and a table can be defined once only; how a table came to be says
what may still be added to it. Entries stay in the order in which they were made.
-/

namespace ResolverRace
namespace Toml

/-- How a table came to be. -/
inductive Kind where
  /-- By its own header, or as the root. -/
  | defined
  /-- By the header of a table inside it. -/
  | implied
  /-- By a dotted key. -/
  | dotted
  deriving DecidableEq, Repr

mutual

inductive Item where
  /-- A value, inline tables and arrays included. -/
  | value (d : Datum)
  | table (t : Table)
  /-- The tables of an array of tables. -/
  | rows (ts : List Table)

inductive Table where
  | mk (kind : Kind) (entries : List (String × Item))

end

namespace Table

def kind : Table → Kind
  | .mk kind _ => kind

def entries : Table → List (String × Item)
  | .mk _ entries => entries

def get? (t : Table) (key : String) : Option Item := t.entries.lookup key

/-- Adds an entry at the end. -/
def append (t : Table) (key : String) (item : Item) : Table :=
  .mk t.kind (t.entries ++ [(key, item)])

/-- Changes an entry where it stands. -/
def replace (t : Table) (key : String) (item : Item) : Table :=
  .mk t.kind (t.entries.map fun entry => if entry.1 = key then (key, item) else entry)

def erase (t : Table) (key : String) : Table :=
  .mk t.kind (t.entries.filter (·.1 ≠ key))

/-- Goes down a path and works on the table at its end. Missing tables are made on the way; the
path of a dotted key must not enter a table that has a header. In an array of tables the way goes
through its last table. -/
def descend {α : Type} (byKey : Bool) :
    List String → (Table → Option (α × Table)) → Table → Option (α × Table)
  | [], work, t => work t
  | key :: path, work, t =>
    match t.get? key with
    | none => do
      let (a, child) ← descend byKey path work (.mk (if byKey then .dotted else .implied) [])
      return (a, t.append key (.table child))
    | some (.table child) =>
      if byKey && child.kind = .defined then none
      else do
        let (a, child) ← descend byKey path work child
        return (a, t.replace key (.table child))
    | some (.rows ts) =>
      match ts.reverse with
      | [] => none
      | last :: before => do
        let (a, last) ← descend byKey path work last
        return (a, t.replace key (.rows (before.reverse ++ [last])))
    | some (.value _) => none

/-- Adds a new key to the table at the end of a dotted key's path: a table that dotted keys made,
or the very table in which the path starts. -/
def addNew (path : List String) (key : String) (d : Datum) (t : Table) : Option (Unit × Table) :=
  if (t.kind = .dotted) == path.isEmpty then none
  else if (t.get? key).isSome then none
  else some ((), t.append key (.value d))

/-- Adds the value of a dotted key. -/
def insert (t : Table) (path : List String) (d : Datum) : Option Table :=
  match path.getLast? with
  | none => none
  | some key => (t.descend true path.dropLast (addNew path.dropLast key d)).map (·.2)

end Table

mutual

def Item.toDatum : Item → Datum
  | .value d => d
  | .table t => t.toDatum
  | .rows ts => .list (rowsToData ts)

def Table.toDatum : Table → Datum
  | .mk _ entries => .record (entriesToData entries)

def rowsToData : List Table → List Datum
  | [] => []
  | t :: ts => t.toDatum :: rowsToData ts

def entriesToData : List (String × Item) → List (String × Datum)
  | [] => []
  | (key, item) :: entries => (key, item.toDatum) :: entriesToData entries

end

/-- A document that is being read: the finished tables and the one whose lines are read. -/
structure Draft where
  root : Table
  current : Table
  /-- The path of the current table; empty for the root. -/
  path : List String
  /-- The current table belongs to an array of tables. -/
  isRow : Bool

namespace Draft

def empty : Draft := ⟨.mk .defined [], .mk .defined [], [], false⟩

/-- Puts the current table into its place. -/
def close (d : Draft) : Option Table :=
  match d.path.getLast? with
  | none => some d.current
  | some key =>
    let place (parent : Table) : Option (Unit × Table) :=
      match d.isRow, parent.get? key with
      | true, some (.rows ts) => some ((), parent.replace key (.rows (ts ++ [d.current])))
      | false, none => some ((), parent.append key (.table d.current))
      | _, _ => none
    (d.root.descend false d.path.dropLast place).map (·.2)

/-- Starts the table of a header. A table that headers below it have implied is taken up again. -/
def openTable (d : Draft) (path : List String) : Option Draft := do
  let root ← d.close
  let key ← path.getLast?
  let take (parent : Table) : Option (List (String × Item) × Table) :=
    match parent.get? key with
    | none => some ([], parent)
    | some (.table t) =>
      if t.kind = .implied then some (t.entries, parent.erase key) else none
    | some _ => none
  let (entries, root) ← root.descend false path.dropLast take
  return ⟨root, .mk .defined entries, path, false⟩

/-- Starts one more table of an array of tables. -/
def openRow (d : Draft) (path : List String) : Option Draft := do
  let root ← d.close
  let key ← path.getLast?
  let prepare (parent : Table) : Option (Unit × Table) :=
    match parent.get? key with
    | none => some ((), parent.append key (.rows []))
    | some (.rows _) => some ((), parent)
    | some _ => none
  let ((), root) ← root.descend false path.dropLast prepare
  return ⟨root, .mk .defined [], path, true⟩

/-- Adds the value of a key to the current table. -/
def insert (d : Draft) (path : List String) (value : Datum) : Option Draft :=
  (d.current.insert path value).map fun current => { d with current := current }

end Draft
end Toml
end ResolverRace
