import ResolverRace.Ip.Basic

/-!
# Reading IP addresses

Each `read` takes an address from the front of a text and returns what follows; each `parse?`
wants the whole text. IPv4 octets have no leading zeros, IPv6 groups have one to four digits, and
an IPv6 address may end in a dotted quad. A socket address has a port of any number of digits and
may name an IPv6 scope, which is dropped.
-/

namespace ResolverRace
open Text

namespace IPv4

def readOctet (cs : List Char) : Option (UInt8 × List Char) :=
  match takeDigits 10 cs with
  | none => none
  | some (digits, rest) =>
    if 3 < digits.length then none
    else if digits.head? = some '0' && 1 < digits.length then none
    else if valueOf 10 digits < 256 then some (.ofNat (valueOf 10 digits), rest)
    else none

def read (cs : List Char) : Option (IPv4 × List Char) := do
  let (a, cs) ← readOctet cs
  let cs ← dropChar '.' cs
  let (b, cs) ← readOctet cs
  let cs ← dropChar '.' cs
  let (c, cs) ← readOctet cs
  let cs ← dropChar '.' cs
  let (d, cs) ← readOctet cs
  return (⟨a, b, c, d⟩, cs)

end IPv4

namespace IPv6

def readGroup (cs : List Char) : Option (UInt16 × List Char) :=
  match takeDigits 16 cs with
  | none => none
  | some (digits, rest) =>
    if 4 < digits.length then none else some (.ofNat (valueOf 16 digits), rest)

/-- A run of groups as `readGroups` finds it. -/
structure Run where
  groups : List UInt16
  /-- The last two groups were written as a dotted quad. -/
  dotted : Bool
  rest : List Char

/-- Takes up to `limit` groups with colons between, `first` telling that no colon is due yet. A
dotted quad ends the run and counts as two groups. -/
def readGroups : (limit : Nat) → (first : Bool) → List Char → Run
  | 0, _, cs => ⟨[], false, cs⟩
  | limit + 1, first, cs =>
    match if first then some cs else dropChar ':' cs with
    | none => ⟨[], false, cs⟩
    | some after =>
      match if 0 < limit then IPv4.read after else none with
      | some (v4, rest) => ⟨[v4.toGroups.1, v4.toGroups.2], true, rest⟩
      | none =>
        match readGroup after with
        | none => ⟨[], false, cs⟩
        | some (g, rest) =>
          let run := readGroups limit false rest
          ⟨g :: run.groups, run.dotted, run.rest⟩

/-- Eight groups as an address. -/
def ofGroups? (groups : List UInt16) : Option IPv6 :=
  if h : groups.length = 8 then some ⟨groups, h⟩ else none

/-- Takes eight groups, or fewer with `::` standing for one or more zero groups. -/
def read (cs : List Char) : Option (IPv6 × List Char) :=
  let head := readGroups 8 true cs
  if head.groups.length = 8 then (ofGroups? head.groups).map (·, head.rest)
  else if head.dotted then none
  else do
    let cs ← dropChar ':' head.rest
    let cs ← dropChar ':' cs
    let tail := readGroups (7 - head.groups.length) true cs
    let zeros := List.replicate (8 - head.groups.length - tail.groups.length) 0
    let address ← ofGroups? (head.groups ++ zeros ++ tail.groups)
    return (address, tail.rest)

end IPv6

namespace IpAddress

/-- Reads a whole text as an IPv4 or IPv6 literal. -/
def parseChars? (cs : List Char) : Option IpAddress :=
  match IPv4.read cs with
  | some (x, []) => some (.v4 x)
  | _ =>
    match IPv6.read cs with
    | some (x, []) => some (.v6 x)
    | _ => none

end IpAddress

namespace SocketAddress

/-- The port at the end of a socket address: digits only, at most 65535. -/
def readPort (cs : List Char) : Option UInt16 := do
  let cs ← dropChar ':' cs
  let (digits, rest) ← takeDigits 10 cs
  let n := valueOf 10 digits
  if rest.isEmpty && n < UInt16.size then some (.ofNat n) else none

/-- Skips `%` and a scope number below 2³²; anything else is left in place. -/
def skipScope (cs : List Char) : List Char :=
  match dropChar '%' cs with
  | none => cs
  | some after =>
    match takeDigits 10 after with
    | none => cs
    | some (digits, rest) => if valueOf 10 digits < UInt32.size then rest else cs

def parseV4? (cs : List Char) : Option SocketAddress := do
  let (x, cs) ← IPv4.read cs
  let port ← readPort cs
  return ⟨.v4 x, port⟩

def parseV6? (cs : List Char) : Option SocketAddress := do
  let cs ← dropChar '[' cs
  let (x, cs) ← IPv6.read cs
  let cs ← dropChar ']' (skipScope cs)
  let port ← readPort cs
  return ⟨.v6 x, port⟩

/-- Reads a whole text as `a.b.c.d:port` or `[address]:port`. -/
def parseChars? (cs : List Char) : Option SocketAddress :=
  (parseV4? cs).or (parseV6? cs)

def parse? (s : String) : Option SocketAddress := parseChars? s.toList

end SocketAddress
end ResolverRace
