import ResolverRace.Datum.Basic
import ResolverRace.Json.Printer

/-!
# Texts by key

The values of a state store: texts by key, in the order of the keys.

* `KeyMap.get?_insert`, `KeyMap.get?_erase` — what is found after a change.
-/

namespace ResolverRace

structure KeyMap where
  /-- Keys in increasing order, each with its text. -/
  entries : List (String × String)
  deriving DecidableEq, Repr

namespace KeyMap

def empty : KeyMap := ⟨[]⟩

def get? (m : KeyMap) (key : String) : Option String := m.entries.lookup key

/-- Puts an entry at its place among ordered entries, over one of the same key. -/
def insertEntry (key value : String) : List (String × String) → List (String × String)
  | [] => [(key, value)]
  | (k, v) :: rest =>
    if key = k then (key, value) :: rest
    else if key < k then (key, value) :: (k, v) :: rest
    else (k, v) :: insertEntry key value rest

def insert (m : KeyMap) (key value : String) : KeyMap := ⟨insertEntry key value m.entries⟩

def erase (m : KeyMap) (key : String) : KeyMap := ⟨m.entries.filter (·.1 ≠ key)⟩

def contains (m : KeyMap) (key : String) : Bool := (m.get? key).isSome

/-- A map of entries; of equal keys the last one counts. -/
def ofList (entries : List (String × String)) : KeyMap :=
  entries.foldl (fun m entry => m.insert entry.1 entry.2) empty

/-- Reads a record whose values are all texts. -/
def ofDatum? : Datum → Option KeyMap
  | .record fields =>
    (fields.mapM fun (field : String × Datum) => field.2.asText?.map (field.1, ·)).map ofList
  | _ => none

/-- The map as it is written to a file. -/
def text (m : KeyMap) : String := Json.indented m.entries

theorem lookup_cons_eq (k k' v : String) (rest : List (String × String)) :
    ((k', v) :: rest).lookup k = if k = k' then some v else rest.lookup k := by
  by_cases h : k = k'
  · simp [h]
  · simp [List.lookup_cons, beq_eq_false_iff_ne.2 h, h]

theorem lookup_insertEntry (key value k : String) (entries : List (String × String)) :
    (insertEntry key value entries).lookup k =
      if k = key then some value else entries.lookup k := by
  induction entries with
  | nil => rw [insertEntry, lookup_cons_eq]
  | cons entry rest ih =>
    obtain ⟨k', v⟩ := entry
    grind [insertEntry, lookup_cons_eq]

theorem lookup_filter_ne (key k : String) (entries : List (String × String)) :
    (entries.filter (·.1 ≠ key)).lookup k = if k = key then none else entries.lookup k := by
  induction entries with
  | nil => simp
  | cons entry rest ih =>
    obtain ⟨k', v⟩ := entry
    rw [List.filter_cons]
    grind [lookup_cons_eq]

theorem get?_insert (m : KeyMap) (key value k : String) :
    (m.insert key value).get? k = if k = key then some value else m.get? k :=
  lookup_insertEntry key value k m.entries

theorem get?_erase (m : KeyMap) (key k : String) :
    (m.erase key).get? k = if k = key then none else m.get? k :=
  lookup_filter_ne key k m.entries

end KeyMap
end ResolverRace
