import ResolverRace.Error
import ResolverRace.Race.Basic
import ResolverRace.Source.Catalogue

/-!
# Settings

What a user configures: where to remember things, what to test and how, and lists of resolvers.

* `Settings.validate` — the ranges that settings must keep, and which fault is told first.
* `Settings.params`, `Settings.catalogue` — what the settings mean for a race.
-/

namespace ResolverRace

/-- General settings. -/
structure General where
  logLevel : String
  /-- The file for what is remembered; without it nothing is. -/
  stateFile : Option String
  deriving DecidableEq, Repr

namespace General

def default : General := ⟨"info", none⟩

end General

/-- Settings of a selection; times are in milliseconds. -/
structure Selection where
  domain : String
  credential : String
  concurrency : Nat
  probeTimeout : Nat
  sessionTimeout : Nat
  source : Source
  /-- A file that replaces the bundled list. -/
  builtinList : Option String
  shuffle : Bool
  deriving DecidableEq, Repr

namespace Selection

def default : Selection :=
  { domain := "", credential := "", concurrency := 5, probeTimeout := 3000,
    sessionTimeout := 60000, source := .builtin, builtinList := none, shuffle := true }

def minProbeTimeout : Nat := 500

def maxProbeTimeout : Nat := 10000

def validate (s : Selection) : Except SettingsError Unit :=
  if s.concurrency < Params.minConcurrency || Params.maxConcurrency < s.concurrency then
    .error (.concurrency s.concurrency)
  else if s.probeTimeout < minProbeTimeout || maxProbeTimeout < s.probeTimeout then
    .error (.probeTimeout s.probeTimeout)
  else if s.sessionTimeout = 0 then .error .sessionTimeout
  else .ok ()

def params (s : Selection) : Params :=
  { probeTimeout := millis s.probeTimeout, sessionTimeout := millis s.sessionTimeout,
    concurrency := s.concurrency, tunnel := ⟨s.domain, s.credential⟩ }

end Selection

structure Settings where
  general : General
  selection : Selection
  lists : List UserList
  deriving DecidableEq, Repr

namespace Settings

def default : Settings := ⟨.default, .default, []⟩

/-- Checks the ids of lists from the first on, given the ids before them. -/
def validateIds : (seen : List String) → List String → Except SettingsError Unit
  | _, [] => .ok ()
  | seen, id :: ids =>
    if id = "" then .error .emptyListId
    else if id ∈ seen then .error (.duplicateListId id)
    else validateIds (id :: seen) ids

/-- The selection is checked first, then the ids of the lists, then that the source exists. -/
def validate (s : Settings) : Except Error Unit :=
  match s.selection.validate with
  | .error fault => .error (.settings fault)
  | .ok () =>
    match validateIds [] (s.lists.map (·.id)) with
    | .error fault => .error (.settings fault)
    | .ok () =>
      match s.selection.source with
      | .builtin => .ok ()
      | .custom id =>
        if id ∈ s.lists.map (·.id) then .ok () else .error (.pool (.unknownList id))

def params (s : Settings) : Params := s.selection.params

/-- The catalogue of the settings; a file with the built-in list is read from the disk. -/
def catalogue (s : Settings) (disk : Disk) : Catalogue :=
  let c :=
    match s.selection.builtinList with
    | some path => Catalogue.ofFile disk path s.lists
    | none => Catalogue.bundled s.lists
  { c with shuffles := s.selection.shuffle }

end Settings
end ResolverRace
