import ResolverRace.Datum.Basic
import ResolverRace.Text.Number

/-!
# Reading JSON

A strict reader for RFC 8259: no comments, no trailing commas, no leading zeros, no control
characters in strings. A string with an unpaired surrogate escape is well formed and reads as
`Datum.broken`, and so does an object with such a key.
-/

namespace ResolverRace
namespace Json
open Text

def isSpace (c : Char) : Bool := c = ' ' || c = '\n' || c = '\t' || c = '\r'

def skipSpace (cs : List Char) : List Char := cs.dropWhile isSpace

/-- Four hexadecimal digits. -/
def readUnit : List Char → Option (Nat × List Char)
  | a :: b :: c :: d :: rest =>
    if [a, b, c, d].all (isDigitOf 16) then some (valueOf 16 [a, b, c, d], rest) else none
  | _ => none

def isHighSurrogate (n : Nat) : Bool := 0xD800 ≤ n && n < 0xDC00

def isLowSurrogate (n : Nat) : Bool := 0xDC00 ≤ n && n < 0xE000

/-- The character that a one-letter escape stands for. -/
def simpleEscape? : Char → Option Char
  | '"' => some '"'
  | '\\' => some '\\'
  | '/' => some '/'
  | 'b' => some '\x08'
  | 'f' => some '\x0c'
  | 'n' => some '\n'
  | 'r' => some '\r'
  | 't' => some '\t'
  | _ => none

/-- The rest of a string after its opening quote: its characters and what follows the closing
quote. The characters are missing if a surrogate has no partner. -/
def readString : (fuel : Nat) → List Char → Option (Option (List Char) × List Char)
  | 0, _ => none
  | fuel + 1, cs =>
    match cs with
    | '"' :: rest => some (some [], rest)
    | '\\' :: 'u' :: rest =>
      match readUnit rest with
      | none => none
      | some (high, rest) =>
        let paired :=
          match rest with
          | '\\' :: 'u' :: more =>
            match readUnit more with
            | some (low, after) =>
              if isHighSurrogate high && isLowSurrogate low then some (low, after) else none
            | none => none
          | _ => none
        match paired with
        | some (low, after) => do
          let (tail, rest) ← readString fuel after
          let c := Char.ofNat (0x10000 + (high - 0xD800) * 0x400 + (low - 0xDC00))
          return (tail.map (c :: ·), rest)
        | none => do
          let (tail, rest) ← readString fuel rest
          if isHighSurrogate high || isLowSurrogate high then return (none, rest)
          else return (tail.map (Char.ofNat high :: ·), rest)
    | '\\' :: c :: rest =>
      match simpleEscape? c with
      | none => none
      | some e => do
        let (tail, rest) ← readString fuel rest
        return (tail.map (e :: ·), rest)
    | c :: rest =>
      if c.toNat < 0x20 || c = '\\' then none
      else do
        let (tail, rest) ← readString fuel rest
        return (tail.map (c :: ·), rest)
    | [] => none

/-- Digits after a point; there must be one at least. -/
def skipFraction (cs : List Char) : Option (Bool × List Char) :=
  match cs with
  | '.' :: rest => (takeDigits 10 rest).map fun (_, rest) => (true, rest)
  | _ => some (false, cs)

def skipExponent (cs : List Char) : Option (Bool × List Char) :=
  let digits (rest : List Char) := (takeDigits 10 rest).map fun (_, rest) => (true, rest)
  match cs with
  | 'e' :: '+' :: rest | 'e' :: '-' :: rest | 'E' :: '+' :: rest | 'E' :: '-' :: rest => digits rest
  | 'e' :: rest | 'E' :: rest => digits rest
  | _ => some (false, cs)

/-- A number after its sign. A negative zero has no whole-number form. -/
def readNumber (negative : Bool) (cs : List Char) : Option (Datum × List Char) := do
  let (digits, cs) ← takeDigits 10 cs
  if digits.head? = some '0' && 1 < digits.length then none
  let (fraction, cs) ← skipFraction cs
  let (exponent, cs) ← skipExponent cs
  let n := valueOf 10 digits
  if fraction || exponent || (negative && n = 0) then return (.real, cs)
  else return (.int (if negative then -(n : Int) else n), cs)

/-- Fields as a record, unless a key has no text. -/
def makeRecord (fields : List (Option String × Datum)) : Datum :=
  match fields.mapM fun (key, value) => key.map (·, value) with
  | some fields => .record fields
  | none => .broken

mutual

/-- A value and what follows it. -/
def readValue : (fuel : Nat) → List Char → Option (Datum × List Char)
  | 0, _ => none
  | fuel + 1, cs =>
    match skipSpace cs with
    | '"' :: rest => do
      let (chars, rest) ← readString (rest.length + 1) rest
      return (chars.elim .broken fun chars => .text (String.ofList chars), rest)
    | '-' :: rest => readNumber true rest
    | '[' :: rest =>
      match skipSpace rest with
      | ']' :: rest => some (.list [], rest)
      | rest => do
        let (items, rest) ← readItems fuel rest
        return (.list items, rest)
    | '\x7b' :: rest =>
      match skipSpace rest with
      | '\x7d' :: rest => some (.record [], rest)
      | rest => do
        let (fields, rest) ← readFields fuel rest
        return (makeRecord fields, rest)
    | 't' :: rest => (dropWord "rue".toList rest).map (.bool true, ·)
    | 'f' :: rest => (dropWord "alse".toList rest).map (.bool false, ·)
    | 'n' :: rest => (dropWord "ull".toList rest).map (.null, ·)
    | c :: rest => if c.isDigit then readNumber false (c :: rest) else none
    | [] => none

/-- Items up to the closing bracket; there is one at least. -/
def readItems : (fuel : Nat) → List Char → Option (List Datum × List Char)
  | 0, _ => none
  | fuel + 1, cs => do
    let (item, rest) ← readValue fuel cs
    match skipSpace rest with
    | ']' :: rest => return ([item], rest)
    | ',' :: rest => do
      let (items, rest) ← readItems fuel rest
      return (item :: items, rest)
    | _ => none

/-- Fields up to the closing brace; there is one at least. -/
def readFields : (fuel : Nat) → List Char → Option (List (Option String × Datum) × List Char)
  | 0, _ => none
  | fuel + 1, cs =>
    match skipSpace cs with
    | '"' :: rest => do
      let (key, rest) ← readString (rest.length + 1) rest
      let rest ← dropChar ':' (skipSpace rest)
      let (value, rest) ← readValue fuel rest
      let field := (key.map String.ofList, value)
      match skipSpace rest with
      | '\x7d' :: rest => return ([field], rest)
      | ',' :: rest => do
        let (fields, rest) ← readFields fuel rest
        return (field :: fields, rest)
      | _ => none
    | _ => none

end

/-- Reads a whole text. Every call consumes a character, or is the second call at its place, so
twice the length is fuel enough. -/
def parse? (s : String) : Option Datum :=
  let cs := s.toList
  match readValue (2 * cs.length + 2) cs with
  | some (value, rest) => if (skipSpace rest).isEmpty then some value else none
  | none => none

end Json
end ResolverRace
