import ResolverRace.Text.Number

/-!
# IP addresses

IPv4 addresses are four octets, IPv6 addresses eight groups of sixteen bits. Their texts are the
dotted quad without leading zeros and the compressed form with the first longest run of two or
more zero groups left out; only IPv4-mapped addresses keep a dotted tail.
-/

namespace ResolverRace

structure IPv4 where
  a : UInt8
  b : UInt8
  c : UInt8
  d : UInt8
  deriving DecidableEq, Repr

structure IPv6 where
  groups : List UInt16
  length_eq : groups.length = 8
  deriving DecidableEq

inductive IpAddress where
  | v4 (address : IPv4)
  | v6 (address : IPv6)
  deriving DecidableEq

/-- An IP address and a port. -/
structure SocketAddress where
  ip : IpAddress
  port : UInt16
  deriving DecidableEq

namespace IPv4

def octetText (o : UInt8) : List Char := Text.decimal o.toNat

def chars (x : IPv4) : List Char :=
  octetText x.a ++ '.' :: octetText x.b ++ '.' :: octetText x.c ++ '.' :: octetText x.d

/-- The two groups of an IPv6 address that hold this address. -/
def toGroups (x : IPv4) : UInt16 × UInt16 :=
  (x.a.toUInt16 * 256 + x.b.toUInt16, x.c.toUInt16 * 256 + x.d.toUInt16)

end IPv4

namespace IPv6

/-- The IPv4 address in the last two groups. -/
def tailIPv4 (high low : UInt16) : IPv4 :=
  ⟨(high / 256).toUInt8, high.toUInt8, (low / 256).toUInt8, low.toUInt8⟩

/-- The IPv4 address that `::ffff:a.b.c.d` stands for. -/
def mapped? : List UInt16 → Option IPv4
  | [0, 0, 0, 0, 0, 0xffff, high, low] => some (tailIPv4 high low)
  | _ => none

/-- How many zero groups stand in front. -/
def zeroRun (groups : List UInt16) : Nat := (groups.takeWhile (· = 0)).length

/-- Start, counted from `i`, and length of the first of the longest runs of zero groups. -/
def longestRun : Nat → List UInt16 → Nat × Nat
  | i, [] => (i, 0)
  | i, g :: gs =>
    let here := zeroRun (g :: gs)
    let later := longestRun (i + 1) gs
    if later.2 ≤ here then (i, here) else later

/-- Groups in hexadecimal with colons between. -/
def joinGroups : List UInt16 → List Char
  | [] => []
  | [g] => Text.hexadecimal g.toNat
  | g :: gs => Text.hexadecimal g.toNat ++ ':' :: joinGroups gs

def chars (x : IPv6) : List Char :=
  match mapped? x.groups with
  | some v4 => "::ffff:".toList ++ v4.chars
  | none =>
    let (start, length) := longestRun 0 x.groups
    if 1 < length then
      joinGroups (x.groups.take start) ++ ':' :: ':' :: joinGroups (x.groups.drop (start + length))
    else joinGroups x.groups

end IPv6

namespace IpAddress

def chars : IpAddress → List Char
  | .v4 x => x.chars
  | .v6 x => x.chars

def text (x : IpAddress) : String := String.ofList x.chars

end IpAddress

namespace SocketAddress

/-- The address and the port; an IPv6 address stands in brackets. -/
def chars (s : SocketAddress) : List Char :=
  match s.ip with
  | .v4 x => x.chars ++ ':' :: Text.decimal s.port.toNat
  | .v6 x => '[' :: x.chars ++ ']' :: ':' :: Text.decimal s.port.toNat

def text (s : SocketAddress) : String := String.ofList s.chars

end SocketAddress
end ResolverRace
