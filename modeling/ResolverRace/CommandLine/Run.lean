import ResolverRace.CommandLine.Command
import ResolverRace.CommandLine.Failure
import ResolverRace.Service
import ResolverRace.Settings.Document
import ResolverRace.Text.Quoted

/-!
# Running commands

A command reads the settings, opens the store, makes a service and does its work on it. What it
finds around it is a `World`; what it leaves is an `Ending`. A failure keeps what was printed and
stored before it.

* `prepareSelect`, `finishSelect` — a selection before and after its race.
* `Invocation.run` — any command.
-/

namespace ResolverRace
namespace CommandLine

/-- What a run finds around it. -/
structure World where
  disk : Disk
  /-- How resolvers answer. -/
  probe : Probe
  chance : Random.Stream

/-- What a run leaves. -/
structure Ending where
  disk : Disk
  /-- What was printed. -/
  lines : List String
  failure : Option Failure

namespace Ending

def failed (disk : Disk) (f : Failure) : Ending := ⟨disk, [], some f⟩

def done (disk : Disk) (lines : List String) : Ending := ⟨disk, lines, none⟩

/-- The exit code. -/
def code (e : Ending) : Nat := if e.failure.isSome then 1 else 0

def output (e : Ending) : String := String.join (e.lines.map (· ++ "\n"))

def errorOutput (e : Ending) : String :=
  match e.failure with
  | some f => f.text
  | none => ""

end Ending

/-- What an operation of a service leaves: the lines of its answer, or the failure of what `doing`
describes. -/
def conclude {α : Type} (doing : String) (lines : α → List String) :
    Service × Except Error α → Ending
  | (s, .ok a) => .done s.store.disk (lines a)
  | (s, .error e) => .failed s.store.disk (.ofError doing e)

/-- The store of the settings; without a file nothing is remembered. -/
def openStore (settings : Settings) (disk : Disk) : Except Failure Store :=
  match settings.general.stateFile with
  | none => .ok (.inMemory .empty disk)
  | some path =>
    match FileStore.opened disk path with
    | .ok store => .ok ⟨.file store, [], disk⟩
    | .error e => .error (.ofError s!"Failed to open state file {Text.quoted path}" e)

def makeService (settings : Settings) (store : Store) (w : World) : Except Failure Service :=
  (Service.create settings store w.chance).mapError (.ofError "Failed to create selection service")

def openService (settings : Settings) (w : World) : Except Failure Service := do
  makeService settings (← openStore settings w.disk) w

/-- Does something with a service, if one can be made. -/
def withService (settings : Settings) (w : World) (act : Service → Ending) : Ending :=
  match openService settings w with
  | .ok s => act s
  | .error f => .failed w.disk f

def readSource (text : String) : Except Failure Source :=
  (Source.parse text).mapError fun e => ⟨s!"Invalid resolver list '{text}'", [e.message]⟩

def readAddress (text : String) : Except Failure Address :=
  (Address.parse text).mapError fun e => ⟨s!"Invalid resolver address '{text}'", [e.message]⟩

/-- Settings with what the line overrides. -/
def override (settings : Settings) (o : Overrides) : Settings :=
  let s := settings.selection
  { settings with selection := { s with
      concurrency := o.concurrency.getD s.concurrency
      probeTimeout := o.probeTimeout.getD s.probeTimeout
      sessionTimeout := o.sessionTimeout.getD s.sessionTimeout } }

/-- A service for settings that can be raced with. -/
def openRacing (settings : Settings) (w : World) : Except Failure Service := do
  settings.validate.mapError (.ofError "Invalid selection settings")
  if (Text.trimChars settings.selection.domain.toList).isEmpty then
    throw (.plain "selection.domain is not set in the configuration")
  openService settings w

/-- Everything of a selection up to its race: the service with the source selected, or the end of
the run. -/
def prepareSelect (settings : Settings) (source : Option String) (w : World) :
    Except Ending Service :=
  match openRacing settings w with
  | .error f => .error (.failed w.disk f)
  | .ok s =>
    match source with
    | none => .ok s
    | some text =>
      match readSource text with
      | .error f => .error (.failed s.store.disk f)
      | .ok source =>
        match s.selectSource source w.chance with
        | (s, .error e) =>
          .error (.failed s.store.disk (.ofError s!"Failed to switch to '{text}'" e))
        | (s, .ok _) => .ok s

/-- The line of an event that is shown while a selection runs. -/
def eventLine? : Event → Option String
  | .progress p => some (Event.progressLine p)
  | _ => none

/-- What is told of a race that ended: lines, or a failure. -/
def verdict : Outcome → List String × Option Failure
  | .found c latency => (["", s!"Selected {c} ({wholeMillis latency}ms)"], none)
  | .cancelled => (["", Outcome.cancelled.reason], none)
  | outcome => ([], some (.plain outcome.reason))

/-- Runs the race of a selection to its end. -/
def finishSelect (w : World) (s : Service) : Ending :=
  let opening := s!"Testing resolvers from {s.catalogue.displayName s.source}"
  match s.start w.probe s.defaults with
  | (s, .error e) =>
    ⟨s.store.disk, [opening], some (.ofError "Failed to start selection" e)⟩
  | (s, .ok ()) =>
    let (s, news, report) := s.wait w.probe
    let shown := opening :: news.events.filterMap eventLine?
    match report with
    | none => ⟨s.store.disk, shown, some (.plain "selection ended without a result")⟩
    | some report =>
      let (lines, failure) := verdict report.outcome
      ⟨s.store.disk, shown ++ lines, failure⟩

def select (settings : Settings) (source : Option String) (w : World) : Ending :=
  match prepareSelect settings source w with
  | .error ending => ending
  | .ok s => finishSelect w s

/-- A number, flush right in four columns. -/
def columnOf (n : Nat) : String :=
  let digits := (toString n).toList
  String.ofList (List.replicate (4 - digits.length) ' ' ++ digits)

/-- The order of a pool. -/
def orderLines (name : String) (order : List Candidate) : List String :=
  s!"{name} ({order.length} resolvers):" ::
    (order.zipIdx 1).map fun (c, n) => s!"{columnOf n}  {c}"

def list (settings : Settings) (source : Option String) (w : World) : Ending :=
  withService settings w fun s =>
    match source with
    | none => .done s.store.disk (orderLines (s.catalogue.displayName s.source) s.pool.candidates)
    | some text =>
      match readSource text with
      | .error f => .failed s.store.disk f
      | .ok source =>
        conclude s!"Failed to load '{text}'" (orderLines (s.catalogue.displayName source))
          (s, s.preview source w.chance)

/-- The address is read before the store is opened. -/
def report (settings : Settings) (address : String) (worked : Bool) (w : World) : Ending :=
  match readAddress address with
  | .error f => .failed w.disk f
  | .ok a =>
    withService settings w fun s =>
      let told :=
        if worked then s!"{a} recorded as working; it will be tested first"
        else s!"{a} recorded as failing; it will be tested last"
      conclude "Failed to record connection outcome" (fun () => [told]) (s.notify a worked)

/-- The line of a list; the selected one is marked. -/
def listLine (selected : Source) (l : UserList) : String :=
  let mark := if selected = .custom l.id then "*" else " "
  s!"{mark} {l.id} ({l.name}, {l.resolvers.length} resolvers)"

/-- A list made of entries, which must all be addresses. -/
def buildList (id name : String) (entries : List String) : Except Failure UserList :=
  entries.foldlM
    (fun l entry =>
      match l.add entry with
      | .ok (l, _) => .ok l
      | .error e => .error ⟨s!"Invalid resolver address '{entry}'", [e.message]⟩)
    (⟨id, name, []⟩ : UserList)

def edit (action : ListAction) (chance : Random.Stream) (s : Service) : Ending :=
  match action with
  | .show => .done s.store.disk (s.catalogue.lists.map (listLine s.source))
  | .create id name entries =>
    match buildList id (name.getD id) entries with
    | .error f => .failed s.store.disk f
    | .ok l =>
      conclude s!"Failed to save list '{id}'"
        (fun replaced => [if replaced then s!"Replaced list '{id}'" else s!"Created list '{id}'"])
        (s.upsertList l chance)
  | .delete id =>
    conclude s!"Failed to delete list '{id}'" (fun _ => [s!"Deleted list '{id}'"])
      (s.removeList id chance)
  | .add id entry =>
    let shown := Text.trim entry
    conclude s!"Failed to add '{entry}' to '{id}'"
      (fun added =>
        [if added then s!"Added {shown} to '{id}'" else s!"'{id}' already contains {shown}"])
      (s.addEntry id entry chance)
  | .remove id entry =>
    match readAddress entry with
    | .error f => .failed s.store.disk f
    | .ok a =>
      conclude s!"Failed to remove {a} from '{id}'"
        (fun removed =>
          [if removed then s!"Removed {a} from '{id}'" else s!"'{id}' does not contain {a}"])
        (s.removeEntry id a chance)

/-- Writes the settings file to start from. -/
def genConfig (output : String) (disk : Disk) : Ending :=
  match disk.writeText output Settings.sample with
  | .error e =>
    .failed disk ⟨s!"Failed to write configuration to {Text.quoted output}", [e.message]⟩
  | .ok disk =>
    .done disk [s!"Sample configuration written to {Text.quoted output}", "",
      "Edit the configuration file and set your tunnel domain before running."]

/-- The settings in a file. -/
def loadSettings (path : String) (disk : Disk) : Except Failure Settings :=
  (Settings.load disk path).mapError
    (.ofError s!"Failed to load configuration from {Text.quoted path}")

/-- Does something under the settings in a file. -/
def withSettings (path : String) (w : World) (act : Settings → Ending) : Ending :=
  match loadSettings path w.disk with
  | .ok settings => act settings
  | .error f => .failed w.disk f

/-- Runs a command; all but the one that writes settings need settings. -/
def Invocation.run (i : Invocation) (w : World) : Ending :=
  match i.command with
  | .select overrides source =>
    withSettings i.config w fun settings => select (override settings overrides) source w
  | .list source => withSettings i.config w fun settings => list settings source w
  | .report address worked =>
    withSettings i.config w fun settings => report settings address worked w
  | .lists action =>
    withSettings i.config w fun settings => withService settings w (edit action w.chance)
  | .genConfig output => genConfig output w.disk

end CommandLine
end ResolverRace
