import ResolverRace.Text.Number

/-!
# Domain names

A domain name is a list of labels. It is read from the text form with dots between labels, in
which a backslash takes away the meaning of the next character or starts three octal digits.

* `Name.parse?` — reads a name and checks its labels.
* `Name.wire` — the form in messages: each label after its length, then a zero.
-/

namespace ResolverRace
namespace Dns
open Text

/-- The labels of a domain name, the root not written. -/
structure Name where
  labels : List (List Char)
  deriving DecidableEq, Repr

namespace Name

/-- The most bytes a label may have. -/
def maxLabel : Nat := 63

/-- Letters, digits, `_` and `.` anywhere, `-` except in front, `*` in front only. -/
def isLabelChar (inFront : Bool) (c : Char) : Bool :=
  c.isAlphanum || c = '_' || c = '.' || (c = '-' && !inFront) || (c = '*' && inFront)

def isLabel : List Char → Bool
  | [] => false
  | c :: cs => isLabelChar true c && cs.all (isLabelChar false) && cs.length < maxLabel

/-- The bytes of the labels with one length byte each. -/
def length : List (List Char) → Nat
  | [] => 0
  | label :: labels => label.length + 1 + length labels

/-- The most bytes that labels and length bytes may take together. -/
def maxLength : Nat := 255

/-- An escape after its backslash. -/
def readEscape : List Char → Option (Char × List Char)
  | [] => none
  | c :: rest =>
    if c.isDigit then
      match rest with
      | d :: e :: rest =>
        if [c, d, e].all (isDigitOf 8) then some (Char.ofNat (valueOf 8 [c, d, e]), rest) else none
      | _ => none
    else some (c, rest)

/-- Reads labels, given the one in hand in reverse. -/
def readLabels : (fuel : Nat) → (label : List Char) → List Char → Option (List (List Char))
  | 0, _, _ => none
  | fuel + 1, label, cs =>
    match cs with
    | [] => if label.isEmpty then some [] else some [label.reverse]
    | '.' :: rest => do
      let labels ← readLabels fuel [] rest
      return label.reverse :: labels
    | '\\' :: rest => do
      let (c, rest) ← readEscape rest
      readLabels fuel (c :: label) rest
    | c :: rest => readLabels fuel (c :: label) rest

/-- Reads a name that ends in a dot. -/
def parse? (cs : List Char) : Option Name := do
  let labels ← readLabels (cs.length + 1) [] cs
  if labels.all isLabel && length labels ≤ maxLength then some ⟨labels⟩ else none

def wireLabel (label : List Char) : List UInt8 :=
  .ofNat label.length :: label.map fun c => .ofNat c.toNat

/-- The bytes of the name in a message. -/
def wire (n : Name) : List UInt8 := n.labels.flatMap wireLabel ++ [0]

end Name
end Dns
end ResolverRace
