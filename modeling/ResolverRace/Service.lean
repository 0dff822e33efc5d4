import ResolverRace.Session.Tracked
import ResolverRace.Settings.Basic

/-!
# The selection service

The service keeps the lists, the selected source, the live pool made from it, and a tracked
session. The selected source and the user's lists are stored, so they outlast the service.

An operation gives the service after it, and a result or an error. An error may come after part of
the service has changed: a list edit that cannot be stored stays in memory. Pools are made with a
stream of random words that the caller supplies.

* `Service.create` — a service from settings and a store.
* `Service.reload`, `Service.selectSource`, `Service.preview` — where the live pool comes from.
* `Service.upsertList`, `Service.removeList`, `Service.addEntry`, `Service.removeEntry` — edits of
  the user's lists.
* `Service.start`, `Service.notify` — selections and what became of them.
-/

namespace ResolverRace

structure Service extends Tracked where
  /-- What a race may use, from the settings. -/
  defaults : Params
  catalogue : Catalogue
  /-- The selected source. -/
  source : Source
  /-- The live pool. -/
  pool : Pool
  deriving DecidableEq

namespace Service

/-- The lists in a store, if any were ever stored. -/
def storedLists (store : Store) : Except Error (Option (List UserList)) :=
  match store.get Store.listsKey with
  | .error e => .error e
  | .ok none => .ok none
  | .ok (some stored) =>
    match (Json.parse? stored).bind (UserList.allOfDatum? true) with
    | some lists => .ok (some lists)
    | none => .error .encoding

/-- The catalogue with the stored lists, if there are any. -/
def withStoredLists (c : Catalogue) (store : Store) : Except Error Catalogue :=
  (storedLists store).map fun
    | some lists => { c with lists := lists }
    | none => c

/-- The source in a store; a text that names no source is passed over. -/
def storedSource (store : Store) : Except Error (Option Source) :=
  (store.get Store.sourceKey).map fun stored => stored.bind fun text => (Source.parse text).toOption

/-- The first source that can be loaded, of the stored and the configured one; else the built-in
list. -/
def chooseSource (c : Catalogue) (stored : Option Source) (configured : Source) : Source :=
  ((stored.toList ++ [configured]).find? c.resolves).getD .builtin

/-- The pool of a source, ordered by what is remembered. -/
def makePool (c : Catalogue) (standing : Standing) (source : Source) (chance : Random.Stream) :
    Except Error Pool :=
  match c.load source chance with
  | .ok (loaded, _) => .ok (standing.apply loaded.pool)
  | .error cause => .error (.pool cause)

/-- Makes a service. -/
def create (settings : Settings) (store : Store) (chance : Random.Stream) :
    Except Error Service := do
  settings.validate
  let catalogue ← withStoredLists (settings.catalogue store.disk) store
  let tracked ← Tracked.opened store
  let stored ← storedSource store
  let source := chooseSource catalogue stored settings.selection.source
  let pool ← makePool catalogue tracked.standing source chance
  return { tracked with
    defaults := settings.params, catalogue := catalogue, source := source, pool := pool }

def phase (s : Service) : Phase := s.session.phase

/-- The service with its live pool made anew. -/
def rebuilt (s : Service) (chance : Random.Stream) : Except Error Service :=
  (makePool s.catalogue s.standing s.source chance).map fun pool => { s with pool := pool }

/-- The order that a pool of a source would have. -/
def preview (s : Service) (source : Source) (chance : Random.Stream) :
    Except Error (List Candidate) :=
  (makePool s.catalogue s.standing source chance).map (·.candidates)

/-- Puts a value into the store. -/
def put (s : Service) (key value : String) : Service × Except Error Unit :=
  let (store, result) := s.store.put key value
  ({ s with store := store }, result)

/-- Stores the lists. -/
def saveLists (s : Service) : Service × Except Error Unit :=
  s.put Store.listsKey (Json.compact (.list (s.catalogue.lists.map UserList.toDatum)))

/-- Stores the selected source. -/
def saveSource (s : Service) (source : Source) : Service × Except Error Unit :=
  s.put Store.sourceKey source.text

/-- Reads the stored lists again and makes the pool anew; gives its size. If the source is gone the
pool is empty. -/
def reload (s : Service) (chance : Random.Stream) : Service × Except Error Nat :=
  match withStoredLists s.catalogue s.store with
  | .error e => (s, .error e)
  | .ok catalogue =>
    let s := { s with catalogue := catalogue }
    match s.rebuilt chance with
    | .ok s => (s, .ok s.pool.size)
    | .error e => ({ s with pool := .empty }, .error e)

/-- Selects a source and stores the choice; gives the size of its pool. With an error the source
and the pool stay as they were. -/
def selectSource (s : Service) (source : Source) (chance : Random.Stream) :
    Service × Except Error Nat :=
  match makePool s.catalogue s.standing source chance with
  | .error e => (s, .error e)
  | .ok pool =>
    match s.saveSource source with
    | (s, .error e) => (s, .error e)
    | (s, .ok ()) => ({ s with source := source, pool := pool }, .ok pool.size)

/-- What follows the edit of a list: if it is the selected one the pool is made anew; then the
lists are stored. -/
def afterEdit (s : Service) (id : String) (chance : Random.Stream) : Service × Except Error Unit :=
  if s.source = .custom id then
    match s.rebuilt chance with
    | .error e => (s, .error e)
    | .ok s => s.saveLists
  else s.saveLists

/-- Puts a list in the place of the one with its id, or at the end, and does what follows an edit;
gives `answer`. -/
def editList {α : Type} (s : Service) (l : UserList) (answer : α) (chance : Random.Stream) :
    Service × Except Error α :=
  let (s, result) := { s with catalogue := s.catalogue.upsert l }.afterEdit l.id chance
  (s, result.map fun () => answer)

/-- Creates or replaces a list; tells whether it replaced one. -/
def upsertList (s : Service) (l : UserList) (chance : Random.Stream) :
    Service × Except Error Bool :=
  if (Text.trimChars l.id.toList).isEmpty then (s, .error (.settings .emptyListId))
  else s.editList l (s.catalogue.find? l.id).isSome chance

/-- Deletes a list and gives it back. If it was selected, the built-in list is selected instead
and the choice stored. -/
def removeList (s : Service) (id : String) (chance : Random.Stream) :
    Service × Except Error UserList :=
  match s.catalogue.find? id with
  | none => (s, .error (.pool (.unknownList id)))
  | some removed =>
    let s := { s with catalogue := s.catalogue.remove id }
    if s.source = .custom id then
      let s := { s with source := .builtin }
      match s.rebuilt chance with
      | .error e => (s, .error e)
      | .ok s =>
        match s.saveLists with
        | (s, .error e) => (s, .error e)
        | (s, .ok ()) =>
          let (s, result) := s.saveSource .builtin
          (s, result.map fun () => removed)
    else
      let (s, result) := s.saveLists
      (s, result.map fun () => removed)

/-- Adds an entry to a list; tells whether the list did not hold its address yet. -/
def addEntry (s : Service) (id entry : String) (chance : Random.Stream) :
    Service × Except Error Bool :=
  match s.catalogue.find? id with
  | none => (s, .error (.pool (.unknownList id)))
  | some l =>
    match l.add entry with
    | .error cause => (s, .error (.pool (.address cause)))
    | .ok (_, false) => (s, .ok false)
    | .ok (l, true) => s.editList l true chance

/-- Removes the entries of an address from a list; tells whether there were any. -/
def removeEntry (s : Service) (id : String) (a : Address) (chance : Random.Stream) :
    Service × Except Error Bool :=
  match s.catalogue.find? id with
  | none => (s, .error (.pool (.unknownList id)))
  | some l => if l.holds a then s.editList (l.remove a) true chance else (s, .ok false)

/-- Records what became of a connection over a resolver. After a failure the resolver also goes to
the back of the live pool. -/
def notify (s : Service) (a : Address) (worked : Bool) : Service × Except Error Unit :=
  if worked then
    let (tracked, result) := s.toTracked.recordSuccess a
    ({ s with toTracked := tracked }, result)
  else
    let (tracked, pool, result) := s.toTracked.recordFailureIn a s.pool
    ({ s with toTracked := tracked, pool := pool }, result)

/-- The live pool with the last winner in front. -/
def favoured (s : Service) : Pool :=
  match s.standing.last with
  | some a => s.pool.promote a
  | none => s.pool

/-- Starts a race among the candidates of the live pool. The last winner goes to the front of the
pool, also if a race is under way and none can be started. -/
def start (probe : Probe) (params : Params) (s : Service) : Service × Except Error Unit :=
  let s := { s with pool := s.favoured }
  match s.session.start probe params s.pool.candidates with
  | .ok session => ({ s with session := session }, .ok ())
  | .error e => (s, .error e)

/-- Asks for the cancellation of the race under way; tells whether there is one. -/
def cancel (s : Service) : Service × Bool :=
  let (session, answer) := s.session.cancel
  ({ s with session := session }, answer)

/-- Takes note of the end of a race; tells whether one had ended. -/
def acknowledge (s : Service) : Service × Bool :=
  let (session, answer) := s.session.acknowledge
  ({ s with session := session }, answer)

/-- Lets a span of time pass. -/
def advance (probe : Probe) (span : Duration) (s : Service) : Service × News :=
  let (tracked, news) := s.toTracked.advance probe span
  ({ s with toTracked := tracked }, news)

/-- Waits for the end of the race that was started last and takes its report. -/
def wait (probe : Probe) (s : Service) : Service × News × Option Report :=
  let (tracked, news, report) := s.toTracked.wait probe
  ({ s with toTracked := tracked }, news, report)

end Service
end ResolverRace
