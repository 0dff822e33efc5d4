/-!
# Numbers in text

Digits in a base up to sixteen, numbers with a bounded count of digits, and decimal numbers with
an upper limit whose refusals have causes of their own.
-/

namespace ResolverRace
namespace Text

/-- The value of a digit, letters counting on from ten in either case. -/
def digitValue? (c : Char) : Option Nat :=
  let n := c.toNat
  if 0x30 ≤ n && n ≤ 0x39 then some (n - 0x30)
  else if 0x61 ≤ n && n ≤ 0x66 then some (n - 0x61 + 10)
  else if 0x41 ≤ n && n ≤ 0x46 then some (n - 0x41 + 10)
  else none

def isDigitOf (base : Nat) (c : Char) : Bool :=
  match digitValue? c with
  | some v => v < base
  | none => false

/-- The number written by a run of digits, most significant first. -/
def valueOf (base : Nat) (digits : List Char) : Nat :=
  digits.foldl (fun n c => n * base + (digitValue? c).getD 0) 0

/-- Takes the run of digits in front of a text; the run must not be empty. -/
def takeDigits (base : Nat) (cs : List Char) : Option (List Char × List Char) :=
  match cs.span (isDigitOf base) with
  | ([], _) => none
  | (digits, rest) => some (digits, rest)

/-- Consumes one expected character. -/
def dropChar (c : Char) : List Char → Option (List Char)
  | d :: rest => if d = c then some rest else none
  | [] => none

/-- Consumes an expected word. -/
def dropWord (word cs : List Char) : Option (List Char) :=
  if word.isPrefixOf cs then some (cs.drop word.length) else none

/-- Decimal digits without leading zeros. -/
def decimal (n : Nat) : List Char := Nat.toDigits 10 n

/-- Lower-case hexadecimal digits without leading zeros. -/
def hexadecimal (n : Nat) : List Char := Nat.toDigits 16 n

/-- Why a text is no number. -/
inductive NumberError where
  | empty
  | invalidDigit
  | tooLarge
  deriving DecidableEq, Repr

def NumberError.message : NumberError → String
  | .empty => "cannot parse integer from empty string"
  | .invalidDigit => "invalid digit found in string"
  | .tooLarge => "number too large to fit in target type"

/-- Reads digits from the left; the first character that is no digit, or that carries the number
over `limit`, decides the error. -/
def accumulate (limit : Nat) : Nat → List Char → Except NumberError Nat
  | n, [] => .ok n
  | n, c :: cs =>
    if isDigitOf 10 c then
      let n' := n * 10 + (digitValue? c).getD 0
      if limit < n' then .error .tooLarge else accumulate limit n' cs
    else .error .invalidDigit

/-- A decimal number up to `limit`; one leading plus sign and any leading zeros are allowed. -/
def parseDecimal (limit : Nat) (cs : List Char) : Except NumberError Nat :=
  match cs with
  | [] => .error .empty
  | ['+'] => .error .invalidDigit
  | '+' :: digits => accumulate limit 0 digits
  | _ => accumulate limit 0 cs

end Text
end ResolverRace
