import ResolverRace.Address.Parser
import ResolverRace.Json.Printer

/-!
# Lists of the user's

A user's list keeps its entries as they were written; it may hold entries that are no addresses
and several spellings of one address. Edits go by address.

* `UserList.add`, `UserList.remove` — edits by address.
* `UserList.enter`, `UserList.withdraw` — the same in place, each with its answer.
* `UserList.ofDatum?`, `UserList.toDatum` — the form in documents.
-/

namespace ResolverRace

structure UserList where
  id : String
  name : String
  /-- Entries as written, first to be tried first. -/
  resolvers : List String
  deriving DecidableEq, Repr

namespace UserList

/-- Whether an entry means the address. -/
def means (a : Address) (entry : String) : Bool := Address.parse? entry = some a

/-- Whether some entry means the address. -/
def holds (l : UserList) (a : Address) : Bool := l.resolvers.any (means a)

/-- Adds an entry at the end, trimmed, unless one with its address is there; tells whether it was
added. -/
def add (l : UserList) (entry : String) : Except AddressError (UserList × Bool) :=
  match Address.parse entry with
  | .error e => .error e
  | .ok address =>
    if l.holds address then .ok (l, false)
    else .ok ({ l with resolvers := l.resolvers ++ [Text.trim entry] }, true)

/-- Removes every entry that means the address. -/
def remove (l : UserList) (a : Address) : UserList :=
  { l with resolvers := l.resolvers.filter (!means a ·) }

/-- The list after an entry is added, and the answer; with an error the list stays as it is. -/
def enter (l : UserList) (entry : String) : UserList × Except AddressError Bool :=
  match l.add entry with
  | .ok (after, added) => (after, .ok added)
  | .error e => (l, .error e)

/-- The list after the entries of an address are removed; tells whether it became shorter. -/
def withdraw (l : UserList) (a : Address) : UserList × Bool :=
  let after := l.remove a
  (after, after.resolvers.length ≠ l.resolvers.length)

/-- The list as a record; its fields are always in this order. -/
def toDatum (l : UserList) : Datum :=
  .record [("id", .text l.id), ("name", .text l.name),
    ("resolvers", .list (l.resolvers.map .text))]

/-- A list of which some fields are known. -/
structure Draft where
  id : Option String
  name : Option String
  resolvers : Option (List String)

/-- Takes in a field. No field may come twice; fields of other names are skipped. -/
def Draft.set (d : Draft) (field : String × Datum) : Option Draft :=
  match field with
  | ("id", value) =>
    if d.id.isSome then none else value.asText?.map fun id => { d with id := some id }
  | ("name", value) =>
    if d.name.isSome then none else value.asText?.map fun name => { d with name := some name }
  | ("resolvers", value) =>
    if d.resolvers.isSome then none
    else value.asTexts?.map fun resolvers => { d with resolvers := some resolvers }
  | _ => some d

/-- Reads a list; the entries may be missing. -/
def ofDatum? (strict : Bool) (datum : Datum) : Option UserList := do
  let fields ← datum.fields? strict ["id", "name", "resolvers"]
  let draft ← fields.foldlM Draft.set ⟨none, none, none⟩
  return ⟨← draft.id, ← draft.name, draft.resolvers.getD []⟩

/-- Reads lists from a list of them. -/
def allOfDatum? (strict : Bool) (datum : Datum) : Option (List UserList) := do
  (← datum.asList?).mapM (ofDatum? strict)

end UserList
end ResolverRace
