import ResolverRace.Datum.Basic
import ResolverRace.Text.Number

/-!
# Words of TOML

Blanks, comments, strings, keys, numbers and dates of TOML 1.0. Each `read` function takes its
word from the front of a text and returns what follows.
-/

namespace ResolverRace
namespace Toml
open Text

def isBlank (c : Char) : Bool := c = ' ' || c = '\t'

def skipBlanks (cs : List Char) : List Char := cs.dropWhile isBlank

/-- A tab or a character that is no control character. -/
def isPrintable (c : Char) : Bool := c = '\t' || (0x20 ≤ c.toNat && c.toNat ≠ 0x7F)

/-- The rest of a comment up to the end of its line. -/
def skipComment (cs : List Char) : List Char :=
  match cs with
  | '#' :: rest => rest.dropWhile isPrintable
  | _ => cs

def readNewline : List Char → Option (List Char)
  | '\n' :: rest => some rest
  | '\r' :: '\n' :: rest => some rest
  | _ => none

/-- What may follow on a line that is done: blanks and a comment, then the end of the line or of
the text. -/
def readLineEnd (cs : List Char) : Option (List Char) :=
  match skipComment (skipBlanks cs) with
  | [] => some []
  | rest => readNewline rest

/-- Blanks, line ends, and comments that end with their line. -/
def skipLines : (fuel : Nat) → List Char → Option (List Char)
  | 0, cs => some cs
  | fuel + 1, cs =>
    match skipBlanks cs with
    | '#' :: rest => do skipLines fuel (← readNewline (rest.dropWhile isPrintable))
    | '\n' :: rest => skipLines fuel rest
    | '\r' :: rest => do skipLines fuel (← readNewline ('\r' :: rest))
    | rest => some rest

/-- `count` hexadecimal digits as a character. -/
def readCodePoint (count : Nat) (cs : List Char) : Option (Char × List Char) :=
  let digits := cs.take count
  if digits.length = count && digits.all (isDigitOf 16) then
    let n := valueOf 16 digits
    if n.isValidChar then some (Char.ofNat n, cs.drop count) else none
  else none

/-- An escape after its backslash. -/
def readEscape : List Char → Option (Char × List Char)
  | 'b' :: rest => some ('\x08', rest)
  | 't' :: rest => some ('\t', rest)
  | 'n' :: rest => some ('\n', rest)
  | 'f' :: rest => some ('\x0c', rest)
  | 'r' :: rest => some ('\r', rest)
  | '"' :: rest => some ('"', rest)
  | '\\' :: rest => some ('\\', rest)
  | 'u' :: rest => readCodePoint 4 rest
  | 'U' :: rest => readCodePoint 8 rest
  | _ => none

/-- A basic string after its opening quote. -/
def readBasic : (fuel : Nat) → List Char → Option (List Char × List Char)
  | 0, _ => none
  | fuel + 1, cs =>
    match cs with
    | '"' :: rest => some ([], rest)
    | '\\' :: rest => do
      let (c, rest) ← readEscape rest
      let (tail, rest) ← readBasic fuel rest
      return (c :: tail, rest)
    | c :: rest =>
      if isPrintable c then do
        let (tail, rest) ← readBasic fuel rest
        return (c :: tail, rest)
      else none
    | [] => none

/-- A literal string after its opening apostrophe. -/
def readLiteral (cs : List Char) : Option (List Char × List Char) :=
  match cs.span fun c => isPrintable c && c ≠ '\'' with
  | (chars, '\'' :: rest) => some (chars, rest)
  | _ => none

/-- The backslash at the end of a line, with all blanks and line ends that follow; given what
stands after the backslash. -/
def readContinuation (cs : List Char) : Option (List Char) :=
  match readNewline (skipBlanks cs) with
  | some rest => some (rest.dropWhile fun c => isBlank c || c = '\n' || c = '\r')
  | none => none

/-- A carriage return belongs to a line end only together with a line feed. -/
def returnsPaired : List Char → Bool
  | '\r' :: '\n' :: rest => returnsPaired rest
  | '\r' :: _ => false
  | _ :: rest => returnsPaired rest
  | [] => true

/-- A multi-line string after its opening quotes, up to the first three `quote` characters; of up
to five in a row the first ones belong to the string. With `escapes` a backslash is special. -/
def readLong (quote : Char) (escapes : Bool) : (fuel : Nat) → List Char →
    Option (List Char × List Char)
  | 0, _ => none
  | fuel + 1, cs =>
    match cs with
    | [] => none
    | c :: rest =>
      if c = quote then
        let (run, after) := cs.span (· = quote)
        if run.length < 3 then do
          let (tail, rest) ← readLong quote escapes fuel after
          return (run ++ tail, rest)
        else if run.length ≤ 5 then some (run.drop 3, after)
        else none
      else if c = '\\' && escapes then
        match readContinuation rest with
        | some after =>
          if returnsPaired (rest.take (rest.length - after.length)) then
            readLong quote escapes fuel after
          else none
        | none => do
          let (e, rest) ← readEscape rest
          let (tail, rest) ← readLong quote escapes fuel rest
          return (e :: tail, rest)
      else
        match readNewline cs with
        | some rest => do
          let (tail, rest) ← readLong quote escapes fuel rest
          return ('\n' :: tail, rest)
        | none =>
          if isPrintable c then do
            let (tail, rest) ← readLong quote escapes fuel rest
            return (c :: tail, rest)
          else none

/-- The body of a multi-line string; a line end right after the opening quotes is dropped. -/
def readLongBody (quote : Char) (escapes : Bool) (cs : List Char) :
    Option (List Char × List Char) :=
  let cs := (readNewline cs).getD cs
  readLong quote escapes (cs.length + 1) cs

/-- A string in any of the four forms. -/
def readText (cs : List Char) : Option (List Char × List Char) :=
  match cs with
  | '"' :: '"' :: '"' :: rest => readLongBody '"' true rest
  | '\'' :: '\'' :: '\'' :: rest => readLongBody '\'' false rest
  | '"' :: rest => readBasic (rest.length + 1) rest
  | '\'' :: rest => readLiteral rest
  | _ => none

def isBareKeyChar (c : Char) : Bool := c.isAlphanum || c = '_' || c = '-'

/-- One part of a key. -/
def readKeyPart (cs : List Char) : Option (String × List Char) :=
  match cs with
  | '"' :: rest => (readBasic (rest.length + 1) rest).map fun (k, rest) => (String.ofList k, rest)
  | '\'' :: rest => (readLiteral rest).map fun (k, rest) => (String.ofList k, rest)
  | _ =>
    match cs.span isBareKeyChar with
    | ([], _) => none
    | (k, rest) => some (String.ofList k, rest)

/-- How deep keys and values may nest. -/
def maxDepth : Nat := 80

/-- The parts of a dotted key, with the blanks around them. -/
def readKeyParts : (fuel : Nat) → List Char → Option (List String × List Char)
  | 0, _ => none
  | fuel + 1, cs => do
    let (part, rest) ← readKeyPart (skipBlanks cs)
    match skipBlanks rest with
    | '.' :: rest => do
      let (parts, rest) ← readKeyParts fuel rest
      return (part :: parts, rest)
    | rest => return ([part], rest)

/-- A dotted key of fewer parts than the depth limit. -/
def readKey (cs : List Char) : Option (List String × List Char) :=
  readKeyParts (maxDepth - 1) cs

/-- Digits with single underscores between digits. -/
def readSpacedDigits (base : Nat) : (fuel : Nat) → List Char → Option (List Char × List Char)
  | 0, _ => none
  | fuel + 1, cs => do
    let (digits, rest) ← takeDigits base cs
    match rest with
    | '_' :: rest => do
      let (more, rest) ← readSpacedDigits base fuel rest
      return (digits ++ more, rest)
    | _ => return (digits, rest)

def readDigits (base : Nat) (cs : List Char) : Option (List Char × List Char) :=
  readSpacedDigits base (cs.length + 1) cs

/-- The whole part of a decimal number: a zero, or digits that do not start with one. -/
def readWhole (cs : List Char) : Option (List Char × List Char) :=
  match cs with
  | '0' :: rest => some (['0'], rest)
  | _ => readDigits 10 cs

/-- A fraction after its point, or nothing. -/
def readFraction (cs : List Char) : Option (Option (List Char) × List Char) :=
  match cs with
  | '.' :: rest => (readDigits 10 rest).map fun (digits, rest) => (some digits, rest)
  | _ => some (none, cs)

/-- An exponent, or nothing. -/
def readExponent (cs : List Char) : Option (Option Int × List Char) :=
  let positive (rest : List Char) :=
    (readDigits 10 rest).map fun (digits, rest) => (some (valueOf 10 digits : Int), rest)
  let negative (rest : List Char) :=
    (readDigits 10 rest).map fun (digits, rest) => (some (-(valueOf 10 digits : Int)), rest)
  match cs with
  | 'e' :: '-' :: rest | 'E' :: '-' :: rest => negative rest
  | 'e' :: '+' :: rest | 'E' :: '+' :: rest => positive rest
  | 'e' :: rest | 'E' :: rest => positive rest
  | _ => some (none, cs)

/-- Whether `n · 10^e` is above the largest binary floating-point number of 64 bits, by half a
unit in its last place at least. -/
def overflowsDouble (n : Nat) (e : Int) : Bool :=
  if n = 0 then false
  else
    let size := (decimal n).length + e
    if 310 < size then true
    else if size < 309 then false
    else (Nat.pow 2 1024 - Nat.pow 2 970) * Nat.pow 10 (-e).toNat ≤ n * Nat.pow 10 e.toNat

/-- The largest whole number. -/
def maxInt : Nat := 0x7fffffffffffffff

/-- A number in base 16, 8 or 2 after its two-letter mark. -/
def readRadix (base : Nat) (cs : List Char) : Option (Datum × List Char) := do
  let (digits, rest) ← readDigits base cs
  if valueOf base digits ≤ maxInt then return (.int (valueOf base digits), rest) else none

/-- A decimal number after its sign. -/
def readDecimal (negative : Bool) (cs : List Char) : Option (Datum × List Char) := do
  let (whole, cs) ← readWhole cs
  let (fraction, cs) ← readFraction cs
  let (exponent, cs) ← readExponent cs
  if fraction.isNone && exponent.isNone then
    let n := valueOf 10 whole
    if negative then
      if n ≤ maxInt + 1 then return (.int (-(n : Int)), cs) else none
    else if n ≤ maxInt then return (.int n, cs)
    else none
  else
    let digits := fraction.getD []
    let e := exponent.getD 0 - digits.length
    if !negative && overflowsDouble (valueOf 10 (whole ++ digits)) e then none
    else return (.real, cs)

/-- Infinity or not-a-number after an optional sign. -/
def readSpecial (cs : List Char) : Option (Datum × List Char) :=
  ((dropWord "inf".toList cs).or (dropWord "nan".toList cs)).map (.real, ·)

def readSigned (negative : Bool) (cs : List Char) : Option (Datum × List Char) :=
  match readSpecial cs with
  | some special => some special
  | none => readDecimal negative cs

def readNumber (cs : List Char) : Option (Datum × List Char) :=
  match cs with
  | '+' :: rest => readSigned false rest
  | '-' :: rest => readSigned true rest
  | '0' :: 'x' :: rest => readRadix 16 rest
  | '0' :: 'o' :: rest => readRadix 8 rest
  | '0' :: 'b' :: rest => readRadix 2 rest
  | _ => readDecimal false cs

/-- `count` digits as a number from `low` to `high`. -/
def readPart (count low high : Nat) (cs : List Char) : Option (Nat × List Char) :=
  let digits := cs.take count
  let n := valueOf 10 digits
  if digits.length = count && digits.all Char.isDigit && low ≤ n && n ≤ high then
    some (n, cs.drop count)
  else none

def isLeapYear (y : Nat) : Bool := y % 4 = 0 && (y % 100 ≠ 0 || y % 400 = 0)

def daysInMonth (year month : Nat) : Nat :=
  if month = 2 then if isLeapYear year then 29 else 28
  else if month = 4 || month = 6 || month = 9 || month = 11 then 30
  else 31

/-- A time of day: hours, minutes, seconds and perhaps a fraction. -/
def readTime (cs : List Char) : Option (List Char) := do
  let (_, cs) ← readPart 2 0 23 cs
  let cs ← dropChar ':' cs
  let (_, cs) ← readPart 2 0 59 cs
  let cs ← dropChar ':' cs
  let (_, cs) ← readPart 2 0 60 cs
  match cs with
  | '.' :: rest => (takeDigits 10 rest).map (·.2)
  | _ => return cs

/-- An offset from universal time, or nothing. -/
def readOffset (cs : List Char) : Option (List Char) :=
  let distance (rest : List Char) : Option (List Char) := do
    let (_, rest) ← readPart 2 0 23 rest
    let rest ← dropChar ':' rest
    let (_, rest) ← readPart 2 0 59 rest
    return rest
  match cs with
  | 'Z' :: rest | 'z' :: rest => some rest
  | '+' :: rest | '-' :: rest => distance rest
  | _ => some cs

/-- A date, which a time of day and an offset may follow. -/
def readDate (cs : List Char) : Option (List Char) := do
  let (year, cs) ← readPart 4 0 9999 cs
  let cs ← dropChar '-' cs
  let (month, cs) ← readPart 2 1 12 cs
  let cs ← dropChar '-' cs
  let (_, cs) ← readPart 2 1 (daysInMonth year month) cs
  match cs with
  | 'T' :: rest | 't' :: rest | ' ' :: rest =>
    match readTime rest with
    | some rest => readOffset rest
    | none => return cs
  | _ => return cs

/-- Four digits and a hyphen start a date. -/
def startsDate (cs : List Char) : Bool :=
  match cs.span Char.isDigit with
  | (digits, '-' :: _) => digits.length = 4
  | _ => false

/-- Two digits and a colon start a time. -/
def startsTime (cs : List Char) : Bool :=
  match cs.span Char.isDigit with
  | (digits, ':' :: _) => digits.length = 2
  | _ => false

/-- A date or time is a record of one field that no structure has. -/
def dateTime : Datum := .record [("$datetime", .null)]

/-- A date, a time or a number. -/
def readNumberOrDate (cs : List Char) : Option (Datum × List Char) :=
  if startsDate cs then (readDate cs).map (dateTime, ·)
  else if startsTime cs then (readTime cs).map (dateTime, ·)
  else readNumber cs

end Toml
end ResolverRace
