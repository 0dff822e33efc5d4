import ResolverRace.Dns.Name
import ResolverRace.Text.Blank

/-!
# Queries

The query that tests a resolver asks for the TXT records of a random label under the tunnel's
domain, so that no cache can answer it.
-/

namespace ResolverRace
namespace Dns

/-- Why a domain has no query. -/
inductive QueryError where
  | noDomain
  | badDomain (domain : String)
  /-- The name is one byte too long to be sent. -/
  | tooLong
  deriving DecidableEq, Repr

namespace QueryError

def message : QueryError → String
  | .noDomain => "no tunnel domain configured"
  | .badDomain domain => s!"invalid tunnel domain '{domain}'"
  | .tooLong => "failed to encode DNS query"

end QueryError

/-- A 16-bit number, high byte first. -/
def bigEndian (n : UInt16) : List UInt8 := [(n >>> 8).toUInt8, n.toUInt8]

/-- A domain without blanks around it and dots behind it. -/
def cleanDomain (domain : String) : List Char :=
  ((Text.trimChars domain.toList).reverse.dropWhile (· = '.')).reverse

/-- Eight lower-case hexadecimal digits. -/
def randomLabel (n : UInt32) : List Char :=
  let digits := Text.hexadecimal n.toNat
  List.replicate (8 - digits.length) '0' ++ digits

/-- The longest name a message can hold, in bytes. -/
def maxWire : Nat := 255

/-- A query with recursion wanted, under an id. -/
def query (domain : String) (label : UInt32) (id : UInt16) : Except QueryError (List UInt8) :=
  let domain := cleanDomain domain
  if domain.isEmpty then .error .noDomain
  else
    match Name.parse? (randomLabel label ++ '.' :: domain ++ ['.']) with
    | none => .error (.badDomain (String.ofList domain))
    | some name =>
      if maxWire < name.wire.length then .error .tooLong
      else
        let header := bigEndian id ++ [0x01, 0x00, 0, 1, 0, 0, 0, 0, 0, 0]
        .ok (header ++ name.wire ++ [0, 16, 0, 1])

end Dns
end ResolverRace
