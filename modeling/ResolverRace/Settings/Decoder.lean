import ResolverRace.Datum.Basic
import ResolverRace.Settings.Basic

/-!
# Settings from documents

Settings are read from a record of records. Every field may be missing, fields of other names are
skipped, and a list of values may stand for the fields in their order. Fields are read in the
order in which they were written, so of two faults the first one is told.

With `strict` a list that stands for fields must not have more values than there are fields.
-/

namespace ResolverRace

/-- A value of a wrong type makes the document malformed. -/
def wellTyped {α : Type} : Option α → Except DocumentError α
  | some a => .ok a
  | none => .error .malformed

namespace Datum

/-- A path, or null for none. -/
def asPath? : Datum → Option (Option String)
  | .null => some none
  | .text s => some (some s)
  | _ => none

end Datum

namespace General

def fieldNames : List String := ["log_level", "state_file"]

def setField (g : General) (field : String × Datum) : Except DocumentError General :=
  match field with
  | ("log_level", d) => (wellTyped d.asText?).map fun v => { g with logLevel := v }
  | ("state_file", d) => (wellTyped d.asPath?).map fun v => { g with stateFile := v }
  | _ => .ok g

def ofDatum (strict : Bool) (d : Datum) : Except DocumentError General := do
  (← wellTyped (d.fields? strict fieldNames)).foldlM setField default

end General

namespace Selection

def fieldNames : List String :=
  ["domain", "credential", "concurrency", "probe_timeout_ms", "session_timeout_ms", "source",
    "builtin_list", "shuffle"]

def readSource (text : String) : Except DocumentError Source :=
  match Source.parse text with
  | .ok source => .ok source
  | .error cause => .error (.badSource cause)

def setField (s : Selection) (field : String × Datum) : Except DocumentError Selection :=
  match field with
  | ("domain", d) => (wellTyped d.asText?).map fun v => { s with domain := v }
  | ("credential", d) => (wellTyped d.asText?).map fun v => { s with credential := v }
  | ("concurrency", d) => (wellTyped d.asWord?).map fun v => { s with concurrency := v }
  | ("probe_timeout_ms", d) => (wellTyped d.asWord?).map fun v => { s with probeTimeout := v }
  | ("session_timeout_ms", d) => (wellTyped d.asWord?).map fun v => { s with sessionTimeout := v }
  | ("source", d) => do
    let source ← readSource (← wellTyped d.asText?)
    return { s with source := source }
  | ("builtin_list", d) => (wellTyped d.asPath?).map fun v => { s with builtinList := v }
  | ("shuffle", d) => (wellTyped d.asBool?).map fun v => { s with shuffle := v }
  | _ => .ok s

def ofDatum (strict : Bool) (d : Datum) : Except DocumentError Selection := do
  (← wellTyped (d.fields? strict fieldNames)).foldlM setField default

end Selection

namespace Settings

def fieldNames : List String := ["common", "selection", "lists"]

def setField (strict : Bool) (s : Settings) (field : String × Datum) :
    Except DocumentError Settings :=
  match field with
  | ("common", d) => (General.ofDatum strict d).map fun v => { s with general := v }
  | ("selection", d) => (Selection.ofDatum strict d).map fun v => { s with selection := v }
  | ("lists", d) =>
    (wellTyped (UserList.allOfDatum? strict d)).map fun v => { s with lists := v }
  | _ => .ok s

/-- Reads settings; they are not validated. -/
def ofDatum (strict : Bool) (d : Datum) : Except DocumentError Settings := do
  (← wellTyped (d.fields? strict fieldNames)).foldlM (setField strict) default

/-- A path in a document. -/
def pathDatum : Option String → Datum
  | some path => .text path
  | none => .null

/-- The settings as a document. -/
def toDatum (s : Settings) : Datum :=
  .record
    [("common", .record
        [("log_level", .text s.general.logLevel), ("state_file", pathDatum s.general.stateFile)]),
      ("selection", .record
        [("domain", .text s.selection.domain),
          ("credential", .text s.selection.credential),
          ("concurrency", .int s.selection.concurrency),
          ("probe_timeout_ms", .int s.selection.probeTimeout),
          ("session_timeout_ms", .int s.selection.sessionTimeout),
          ("source", .text s.selection.source.text),
          ("builtin_list", pathDatum s.selection.builtinList),
          ("shuffle", .bool s.selection.shuffle)]),
      ("lists", .list (s.lists.map UserList.toDatum))]

end Settings
end ResolverRace
