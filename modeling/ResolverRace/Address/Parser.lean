import ResolverRace.Address.Basic

/-!
# Parsing resolver addresses

The text is trimmed, then read as a socket address, else as an IP literal, else as an IP literal
in brackets with or without a port, else as a host or as host and port at the last colon. Blanks
inside, URLs and paths are refused first.
-/

namespace ResolverRace
namespace Address

/-- The port in `text`: a decimal number from 1 to 65535. -/
def parsePort (text port : List Char) : Except AddressError UInt16 :=
  match Text.parseDecimal 65535 port with
  | .error cause => .error (.badPort (String.ofList text) (String.ofList port) cause)
  | .ok 0 => .error (.portZero (String.ofList text))
  | .ok n => .ok (.ofNat n)

/-- What follows the opening bracket of `text`. -/
def parseBracketed (text rest : List Char) : Except AddressError Address :=
  match rest.span (· ≠ ']') with
  | (_, []) => .error (.missingBracket (String.ofList text))
  | (literal, _ :: tail) =>
    match IpAddress.parseChars? literal with
    | none => .error (.badLiteral (String.ofList literal))
    | some ip =>
      match tail with
      | [] => ofIp ip defaultPort
      | ':' :: port =>
        match parsePort text port with
        | .ok port => ofIp ip port
        | .error e => .error e
      | _ => .error (.unexpectedTail (String.ofList text) (String.ofList tail))

/-- A text without blanks, without slashes, and not empty. -/
def parseCompact (text : List Char) : Except AddressError Address :=
  match SocketAddress.parseChars? text with
  | some s => ofIp s.ip s.port
  | none =>
    match IpAddress.parseChars? text with
    | some ip => ofIp ip defaultPort
    | none =>
      match text with
      | '[' :: rest => parseBracketed text rest
      | _ =>
        match Text.cutAtLast ':' text with
        | none => make text defaultPort
        | some (host, port) =>
          match parsePort text port with
          | .ok port => make host port
          | .error e => .error e

/-- Reads a resolver address from trimmed characters. -/
def parseTrimmed (text : List Char) : Except AddressError Address :=
  if text.isEmpty then .error .empty
  else if text.any Text.isBlank then .error (.hasBlank (String.ofList text))
  else if Text.occursIn "://".toList text then .error (.isUrl (String.ofList text))
  else if text.contains '/' then .error (.hasPath (String.ofList text))
  else parseCompact text

/-- Reads a resolver address. -/
def parse (s : String) : Except AddressError Address :=
  parseTrimmed (Text.trimChars s.toList)

/-- The address, if the text is one. -/
def parse? (s : String) : Option Address := (parse s).toOption

end Address
end ResolverRace
