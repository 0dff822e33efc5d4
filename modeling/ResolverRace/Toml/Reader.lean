import ResolverRace.Toml.Lexeme
import ResolverRace.Toml.Table

/-!
# Reading TOML

Values, lines and whole documents of TOML 1.0. A byte order mark in front is skipped. Arrays,
inline tables and keys must not nest as deep as the depth limit.
-/

namespace ResolverRace
namespace Toml
open Text

/-- What follows the item of an array: the end of the array or the next item. -/
inductive After where
  | done (rest : List Char)
  | more (rest : List Char)

def readAfter (close : Char) (cs : List Char) : Option After :=
  match cs with
  | c :: rest =>
    if c = close then some (.done rest)
    else if c = ',' then some (.more rest)
    else none
  | [] => none

mutual

/-- A value inside `depth` others. -/
def readValue : (fuel depth : Nat) → List Char → Option (Datum × List Char)
  | 0, _, _ => none
  | fuel + 1, depth, cs =>
    match cs with
    | '"' :: _ | '\'' :: _ => (readText cs).map fun (s, rest) => (.text (String.ofList s), rest)
    | '[' :: rest =>
      if maxDepth ≤ depth + 1 then none
      else (readItems fuel (depth + 1) rest).map fun (items, rest) => (.list items, rest)
    | '\x7b' :: rest =>
      if maxDepth ≤ depth + 1 then none
      else
        match skipBlanks rest with
        | '\x7d' :: rest => some (.record [], rest)
        | _ => (readPairs fuel (depth + 1) (.mk .defined []) rest).map fun (t, rest) =>
            (t.toDatum, rest)
    | 't' :: _ => (dropWord "true".toList cs).map (.bool true, ·)
    | 'f' :: _ => (dropWord "false".toList cs).map (.bool false, ·)
    | 'i' :: _ | 'n' :: _ => readSpecial cs
    | c :: _ => if c = '+' || c = '-' || c.isDigit then readNumberOrDate cs else none
    | [] => none

/-- The items of an array up to its closing bracket; a comma may follow the last one. -/
def readItems : (fuel depth : Nat) → List Char → Option (List Datum × List Char)
  | 0, _, _ => none
  | fuel + 1, depth, cs => do
    match ← skipLines cs.length cs with
    | ']' :: rest => return ([], rest)
    | cs => do
      let (item, rest) ← readValue fuel depth cs
      let rest ← skipLines rest.length rest
      match ← readAfter ']' rest with
      | .done rest => return ([item], rest)
      | .more rest => do
        let (items, rest) ← readItems fuel depth rest
        return (item :: items, rest)

/-- The pairs of an inline table up to its closing brace; there is one at least. -/
def readPairs : (fuel depth : Nat) → Table → List Char → Option (Table × List Char)
  | 0, _, _, _ => none
  | fuel + 1, depth, t, cs => do
    let (key, rest) ← readKey cs
    let rest ← dropChar '=' rest
    let (value, rest) ← readValue fuel depth (skipBlanks rest)
    let t ← t.insert key value
    match ← readAfter '\x7d' (skipBlanks rest) with
    | .done rest => return (t, rest)
    | .more rest => readPairs fuel depth t rest

end

/-- A header's key, its closing brackets and the end of its line. -/
def readHeader (close : List Char) (cs : List Char) : Option (List String × List Char) := do
  let (path, rest) ← readKey cs
  let rest ← dropWord close rest
  let rest ← readLineEnd rest
  return (path, rest)

/-- A key with its value and the end of its line. -/
def readPair (cs : List Char) : Option ((List String × Datum) × List Char) := do
  let (key, rest) ← readKey cs
  let rest ← dropChar '=' rest
  let rest := skipBlanks rest
  let (value, rest) ← readValue (2 * rest.length + 2) 0 rest
  let rest ← readLineEnd rest
  return ((key, value), rest)

/-- The lines of a document, one after the other. -/
def readLines : (fuel : Nat) → Draft → List Char → Option Draft
  | 0, _, _ => none
  | fuel + 1, d, cs =>
    match skipBlanks cs with
    | [] => some d
    | '#' :: rest => do readLines fuel d (← readLineEnd ('#' :: rest))
    | '\n' :: rest => readLines fuel d rest
    | '\r' :: rest => do readLines fuel d (← readNewline ('\r' :: rest))
    | '[' :: '[' :: rest => do
      let (path, rest) ← readHeader "]]".toList rest
      readLines fuel (← d.openRow path) rest
    | '[' :: rest => do
      let (path, rest) ← readHeader "]".toList rest
      readLines fuel (← d.openTable path) rest
    | cs => do
      let ((key, value), rest) ← readPair cs
      readLines fuel (← d.insert key value) rest

/-- Reads a document. Every line takes a character at least. -/
def parse? (s : String) : Option Datum :=
  let cs :=
    match s.toList with
    | '\uFEFF' :: rest => rest
    | cs => cs
  match readLines (cs.length + 1) .empty cs with
  | some d => d.close.map Table.toDatum
  | none => none

end Toml
end ResolverRace
