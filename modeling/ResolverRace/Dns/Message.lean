/-!
# Responses

A datagram is read as a DNS message: the header, then all questions and records that the header
counts. Of the records only their well-formedness matters, and the part of the response code that
an OPT record carries. Bytes after the last record are allowed.

* `Message.decode?` — id, kind and response code of a well-formed message.
-/

namespace ResolverRace
namespace Dns

abbrev Bytes := Array UInt8

/-- What a probe wants to know of a message. -/
structure Message where
  id : UInt16
  isResponse : Bool
  /-- The response code, with the high part from an OPT record. -/
  code : Nat
  deriving DecidableEq, Repr

/-- A place in the bytes of a message. -/
abbrev Offset := Nat

def byte? (b : Bytes) (i : Offset) : Option Nat := b[i]?.map UInt8.toNat

/-- A 16-bit number at a place. -/
def word? (b : Bytes) (i : Offset) : Option Nat := do
  return 256 * (← byte? b i) + (← byte? b (i + 1))

/-- The place `n` bytes on, if the message has them. -/
def skip? (b : Bytes) (i : Offset) (n : Nat) : Option Offset :=
  if i + n ≤ b.size then some (i + n) else none

/-- The most bytes of a name, labels with their length bytes. -/
def maxNameLength : Nat := 255

/-- Reads a name that starts at `start`: how many bytes its labels take, and the place behind it.
A pointer goes back behind the start of the part of the name that it ends, and the part it leads
to must end before `limit`. -/
def readName (b : Bytes) : (fuel : Nat) → (start : Offset) → (limit : Option Offset) →
    (length : Nat) → (i : Offset) → Option (Nat × Offset)
  | 0, _, _, _, _ => none
  | fuel + 1, start, limit, length, i => do
    if limit.any (· ≤ i) then none
    let n ← byte? b i
    if n = 0 then return (length, i + 1)
    else if n < 0x40 then
      let next ← skip? b i (n + 1)
      let length := length + n + 1
      if maxNameLength < length then none else readName b fuel start limit length next
    else if 0xC0 ≤ n then
      let target := (← word? b i) % 0x4000
      if target < start then
        let (length, _) ← readName b fuel target (some start) length target
        return (length, i + 2)
      else none
    else none

/-- Reads a name. A label or a pointer is consumed at each step, and at most 255 steps take a
label. -/
def name? (b : Bytes) (i : Offset) : Option (Nat × Offset) :=
  readName b (b.size + maxNameLength + 1) i none 0 i

/-- The place behind a name. -/
def afterName? (b : Bytes) (i : Offset) : Option Offset := (name? b i).map (·.2)

/-- The place behind a text of counted length. -/
def afterText? (b : Bytes) (i : Offset) : Option Offset := do skip? b i ((← byte? b i) + 1)

/-- The place behind texts that fill the bytes up to `stop`. -/
def afterTexts? (b : Bytes) (stop : Offset) : (fuel : Nat) → Offset → Option Offset
  | 0, i => some i
  | fuel + 1, i => if i < stop then do afterTexts? b stop fuel (← afterText? b i) else some i

/-- The place behind options of code, length and value; the value of the last one may be cut
off. -/
def afterOptions? (b : Bytes) (start stop : Offset) : (fuel : Nat) → Offset → Option Offset
  | 0, i => some i
  | fuel + 1, i =>
    if stop ≤ i then some i
    else do
      let i ← skip? b i 2
      if stop ≤ i then some i
      else
        let length ← word? b i
        if stop - start < length then none
        else
          let i ← skip? b i 2
          if stop ≤ i then some i
          else if stop ≤ i + length then some stop
          else afterOptions? b start stop fuel (i + length)

/-- The place behind the data of a record. The forms of the types that name hosts or hold texts
are checked; other data is taken as it is. -/
def afterData? (b : Bytes) (type : Nat) (start stop : Offset) : Option Offset :=
  match type with
  | 1 => some (start + 4)
  | 28 => some (start + 16)
  | 2 | 5 | 12 => afterName? b start
  | 15 => do afterName? b (← skip? b start 2)
  | 33 => do afterName? b (← skip? b start 6)
  | 6 => do skip? b (← afterName? b (← afterName? b start)) 20
  | 13 => do afterText? b (← afterText? b start)
  | 16 => afterTexts? b stop (stop - start) start
  | 41 => afterOptions? b start stop (stop - start) start
  | _ => some stop

/-- A record: the place behind it, and for an OPT record the high part of the response code. -/
def record? (b : Bytes) (i : Offset) : Option (Offset × Option Nat) := do
  let (length, i) ← name? b i
  let type ← word? b i
  if type = 41 && length ≠ 0 then none
  let high ← byte? b (i + 4)
  let size ← word? b (i + 8)
  let start := i + 10
  let stop ← skip? b start size
  if size ≠ 0 && afterData? b type start stop ≠ some stop then none
  else return (stop, if type = 41 then some high else none)

/-- Skips `n` questions. -/
def questions? (b : Bytes) : (n : Nat) → Offset → Option Offset
  | 0, i => some i
  | n + 1, i => do questions? b n (← skip? b (← afterName? b i) 4)

/-- Skips `n` records. -/
def records? (b : Bytes) : (n : Nat) → Offset → Option Offset
  | 0, i => some i
  | n + 1, i => do records? b n (← record? b i).1

/-- Skips `n` additional records and takes the high part of the response code from them; at most
one OPT record is allowed. -/
def additional? (b : Bytes) : (n : Nat) → (high : Option Nat) → Offset → Option Nat
  | 0, high, _ => some (high.getD 0)
  | n + 1, high, i => do
    let (i, found) ← record? b i
    if high.isSome && found.isSome then none else additional? b n (high.or found) i

/-- The kinds of operation that a header can name. -/
def operations : List Nat := [0, 2, 4, 5]

namespace Message

def decodeBytes? (b : Bytes) : Option Message := do
  let id ← word? b 0
  let flags ← byte? b 2
  let codes ← byte? b 3
  if !operations.contains (flags / 8 % 16) then none
  let questions ← word? b 4
  let answers ← word? b 6
  let authorities ← word? b 8
  let additionals ← word? b 10
  let i ← questions? b questions 12
  let i ← records? b answers i
  let i ← records? b authorities i
  let high ← additional? b additionals none i
  return { id := .ofNat id, isResponse := 128 ≤ flags, code := 16 * high + codes % 16 }

/-- Reads a datagram. -/
def decode? (datagram : List UInt8) : Option Message := decodeBytes? datagram.toArray

end Message
end Dns
end ResolverRace
