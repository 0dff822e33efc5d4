import ResolverRace.Ip.Reader
import ResolverRace.Text.Blank

/-!
# Resolver addresses

A resolver is named by an IP literal or a hostname, and a port. Hostnames are kept in lower case
without their closing dot; they never read as IP literals, so two spellings of one resolver are
one `Address`.

* `Address.make` checks a host and a port.
* `Address.text` writes `host:port`, an IPv6 literal in brackets.
-/

namespace ResolverRace

/-- Why a text is no resolver address. -/
inductive AddressError where
  | empty
  | hasBlank (text : String)
  | isUrl (text : String)
  | hasPath (text : String)
  | portZero (text : String)
  | badPort (text port : String) (cause : Text.NumberError)
  | missingBracket (text : String)
  | badLiteral (literal : String)
  | unexpectedTail (text tail : String)
  | emptyHost
  | hostTooLong (host : String)
  | badQuad (host : String)
  | badHost (host : String)
  deriving DecidableEq, Repr

namespace AddressError

/-- What is wrong with the text, without the general heading. -/
def detail : AddressError → String
  | .empty => "empty address"
  | .hasBlank text => s!"'{text}' contains whitespace"
  | .isUrl text => s!"'{text}' is a URL, expected host[:port]"
  | .hasPath text => s!"'{text}' contains a path, expected host[:port]"
  | .portZero text => s!"'{text}': port 0 is not allowed"
  | .badPort text port cause => s!"'{text}': invalid port '{port}': {cause.message}"
  | .missingBracket text => s!"'{text}': missing ']'"
  | .badLiteral literal => s!"invalid IP address '{literal}': invalid IP address syntax"
  | .unexpectedTail text tail => s!"'{text}': unexpected '{tail}'"
  | .emptyHost => "empty host"
  | .hostTooLong host => s!"host '{host}' is too long"
  | .badQuad host => s!"invalid IPv4 address '{host}'"
  | .badHost host => s!"invalid host '{host}'"

def message (e : AddressError) : String := "invalid resolver address: " ++ e.detail

end AddressError

/-- The host part of a resolver address. -/
inductive Host where
  | ip (address : IpAddress)
  | name (text : String)
  deriving DecidableEq

namespace Host

/-- The most bytes a hostname may have. -/
def maxLength : Nat := 253

/-- The most bytes a label of a hostname may have. -/
def maxLabelLength : Nat := 63

def isLabelChar (c : Char) : Bool := c.isAlphanum || c = '-' || c = '_'

/-- Letters, digits, `-` and `_`, at most 63 of them, and no `-` at either end. -/
def isLabel (label : List Char) : Bool :=
  !label.isEmpty && label.length ≤ maxLabelLength && label.all isLabelChar &&
    label.head? ≠ some '-' && label.getLast? ≠ some '-'

def isNumeric (label : List Char) : Bool := !label.isEmpty && label.all Char.isDigit

/-- Drops one closing dot. -/
def dropRootDot (host : List Char) : List Char :=
  match host.reverse with
  | '.' :: rest => rest.reverse
  | _ => host

/-- Checks a hostname and brings it into lower case without closing dot. Labels that are all
digits are a mistyped IPv4 literal. -/
def ofName (host : List Char) : Except AddressError Host :=
  let host := dropRootDot host
  let labels := Text.splitAtEach '.' host
  if host.isEmpty then .error .emptyHost
  else if maxLength < Text.byteLength host then .error (.hostTooLong (String.ofList host))
  else if labels.all isNumeric then .error (.badQuad (String.ofList host))
  else if labels.all isLabel then .ok (.name (String.ofList (Text.lowerChars host)))
  else .error (.badHost (String.ofList host))

/-- Reads a host: an IP literal if it is one, else a hostname. -/
def parse (host : List Char) : Except AddressError Host :=
  match IpAddress.parseChars? host with
  | some address => .ok (.ip address)
  | none => ofName host

def text : Host → String
  | .ip address => address.text
  | .name text => text

end Host

/-- A host and a port. -/
structure Address where
  host : Host
  port : UInt16
  deriving DecidableEq

namespace Address

/-- The port of an address that names none. -/
def defaultPort : UInt16 := 53

/-- Checks a host and a port. -/
def make (host : List Char) (port : UInt16) : Except AddressError Address :=
  if port = 0 then .error (.portZero (String.ofList host))
  else
    match Host.parse host with
    | .ok host => .ok ⟨host, port⟩
    | .error e => .error e

/-- The address of an IP literal and a port that is not zero. -/
def ofIp (ip : IpAddress) (port : UInt16) : Except AddressError Address :=
  if port = 0 then .error (.portZero ip.text) else .ok ⟨.ip ip, port⟩

/-- The address of a socket, whatever its port. -/
def ofSocket (s : SocketAddress) : Address := ⟨.ip s.ip, s.port⟩

def isIp (a : Address) : Bool :=
  match a.host with
  | .ip _ => true
  | .name _ => false

/-- The socket address, if the host is an IP literal. -/
def socket? (a : Address) : Option SocketAddress :=
  match a.host with
  | .ip ip => some ⟨ip, a.port⟩
  | .name _ => none

/-- `host:port`, an IPv6 literal in brackets. -/
def text (a : Address) : String :=
  let port := String.ofList (Text.decimal a.port.toNat)
  match a.host with
  | .ip (.v6 x) => "[" ++ String.ofList x.chars ++ "]:" ++ port
  | host => host.text ++ ":" ++ port

instance : ToString Address := ⟨text⟩

/-- Addresses are listed by host text, then by port. -/
def before (a b : Address) : Bool :=
  a.host.text < b.host.text || (a.host.text = b.host.text && a.port ≤ b.port)

end Address
end ResolverRace
