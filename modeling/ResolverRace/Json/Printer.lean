import ResolverRace.Datum.Basic
import ResolverRace.Text.Number

/-!
# Writing JSON

Strings are quoted with the two-character escapes where JSON has them, `\u00xx` for the other
control characters below U+0020, and every other character as it is. Values are written without
blanks; flat records of texts also have an indented form.
-/

namespace ResolverRace
namespace Json
open Text

/-- The written form of one character of a string. -/
def escape (c : Char) : List Char :=
  if c = '"' then ['\\', '"']
  else if c = '\\' then ['\\', '\\']
  else if c = '\x08' then ['\\', 'b']
  else if c = '\x0c' then ['\\', 'f']
  else if c = '\n' then ['\\', 'n']
  else if c = '\r' then ['\\', 'r']
  else if c = '\t' then ['\\', 't']
  else if c.toNat < 0x20 then
    '\\' :: 'u' :: '0' :: '0' ::
      (if c.toNat < 0x10 then '0' :: hexadecimal c.toNat else hexadecimal c.toNat)
  else [c]

def quoteChars (cs : List Char) : List Char := '"' :: (cs.flatMap escape ++ ['"'])

/-- A string in quotes. -/
def quote (s : String) : String := String.ofList (quoteChars s.toList)

/-- Parts with a separator between. -/
def joinWith (separator : String) (parts : List String) : String := separator.intercalate parts

mutual

/-- A value without blanks. Only data without broken parts and fractions is ever written. -/
def compact : Datum → String
  | .null | .real | .broken => "null"
  | .bool b => if b then "true" else "false"
  | .int n => toString n
  | .text s => quote s
  | .list items => "[" ++ joinWith "," (compactItems items) ++ "]"
  | .record fields => "\x7b" ++ joinWith "," (compactFields fields) ++ "\x7d"

def compactItems : List Datum → List String
  | [] => []
  | item :: items => compact item :: compactItems items

def compactFields : List (String × Datum) → List String
  | [] => []
  | (key, value) :: fields => (quote key ++ ":" ++ compact value) :: compactFields fields

end

/-- Texts by key, one to a line, two blanks deep. -/
def indented (entries : List (String × String)) : String :=
  if entries.isEmpty then "\x7b\x7d"
  else
    let line := fun (entry : String × String) => "  " ++ quote entry.1 ++ ": " ++ quote entry.2
    "\x7b\n" ++ joinWith ",\n" (entries.map line) ++ "\n\x7d"

end Json
end ResolverRace
