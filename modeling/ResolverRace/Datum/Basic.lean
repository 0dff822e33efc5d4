/-!
# Data read from documents

State files and configurations hold the same few shapes of data, whatever notation they are
written in. A `Datum` is such a value; records keep the order in which their fields were written.
-/

namespace ResolverRace

inductive Datum where
  | null
  | bool (b : Bool)
  | int (n : Int)
  /-- A number written with a fraction or an exponent. -/
  | real
  | text (s : String)
  /-- Well formed, but no text is meant by it: it can only be skipped. -/
  | broken
  | list (items : List Datum)
  | record (fields : List (String × Datum))

namespace Datum

def asText? : Datum → Option String
  | .text s => some s
  | _ => none

def asBool? : Datum → Option Bool
  | .bool b => some b
  | _ => none

/-- A whole number from zero up to `2⁶⁴ - 1`. -/
def asWord? : Datum → Option Nat
  | .int (.ofNat n) => if n < UInt64.size then some n else none
  | _ => none

def asList? : Datum → Option (List Datum)
  | .list items => some items
  | _ => none

def asTexts? (d : Datum) : Option (List String) :=
  match d with
  | .list items => items.mapM asText?
  | _ => none

/-- The fields of a structure: a record gives its fields by name, a list gives the values of the
fields `names` in that order. With `strict` a list must not be longer than `names`. -/
def fields? (strict : Bool) (names : List String) : Datum → Option (List (String × Datum))
  | .record fields => some fields
  | .list items =>
    if strict && names.length < items.length then none else some (names.zip items)
  | _ => none

/-- The first field of a name. -/
def field? (name : String) : Datum → Option Datum
  | .record fields => fields.lookup name
  | _ => none

end Datum
end ResolverRace
