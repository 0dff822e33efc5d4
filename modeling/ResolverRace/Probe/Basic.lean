import ResolverRace.Candidate

/-!
# Probes

A probe tests one resolver: it answers after a while, or never, that the resolver works or why it
does not. What it answers depends on the resolver, the tunnel and the time it is given, and on
nothing else.
-/

namespace ResolverRace

/-- A length of time, or an instant counted from a fixed start, in microseconds. -/
abbrev Duration := Nat

namespace Duration

/-- The longest length of time there is: its whole seconds fit into 64 bits. -/
def longest : Duration := UInt64.size * 1000000 - 1

/-- The last instant of the clock, which counts its seconds with a sign. -/
def lastInstant : Duration := UInt64.size / 2 * 1000000 - 1

end Duration

/-- `n` milliseconds. -/
def millis (n : Nat) : Duration := 1000 * n

/-- Whole milliseconds, the rest cut off. -/
def wholeMillis (d : Duration) : Nat := d / 1000

/-- The tunnel that a resolver has to carry. -/
structure Tunnel where
  domain : String
  /-- Handed on to the probe as it is. -/
  credential : String
  deriving DecidableEq, Repr

/-- What a test of a resolver showed. -/
inductive Response where
  | success (latency : Duration)
  | failure (reason : String)
  deriving DecidableEq, Repr

namespace Response

def isSuccess : Response → Bool
  | .success _ => true
  | .failure _ => false

def latency? : Response → Option Duration
  | .success latency => some latency
  | .failure _ => none

def reason? : Response → Option String
  | .success _ => none
  | .failure reason => some reason

end Response

/-- A response and the time after which it comes; without a time it never comes. -/
structure Answer where
  after : Option Duration
  response : Response
  deriving DecidableEq, Repr

/-- How resolvers answer, given the tunnel and the time budget of a test. -/
abbrev Probe := Address → Tunnel → Duration → Answer

end ResolverRace
