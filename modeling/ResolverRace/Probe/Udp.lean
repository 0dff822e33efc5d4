import ResolverRace.Dns.Message
import ResolverRace.Dns.Query
import ResolverRace.Probe.Basic

/-!
# Probes over UDP

A resolver is asked a query for the tunnel's domain. The first datagram that is a response to it
decides: any answer shows that the resolver works, except the refusals SERVFAIL and REFUSED.
Other datagrams are passed over. All that is done for a probe counts towards its time budget.

* `Waiting.verdict?` — what a sequence of datagrams says.
* `Surroundings.probe` — the probe, given how datagrams and names are read and a network.
-/

namespace ResolverRace
namespace Udp

/-- A datagram and the time after which it arrives. -/
structure Datagram where
  after : Duration
  bytes : List UInt8
  deriving DecidableEq, Repr

/-- Why nothing more can be received, and after which time. -/
structure Breakdown where
  after : Duration
  reason : String
  deriving DecidableEq, Repr

/-- What comes of sending a query. -/
inductive Exchange where
  /-- Nothing could be sent. -/
  | failed (reason : String)
  /-- Datagrams come in this order; after them receiving may fail. -/
  | replies (datagrams : List Datagram) (breakdown : Option Breakdown := none)
  deriving DecidableEq, Repr

/-- What a network does with a query to a resolver. -/
abbrev Network := SocketAddress → List UInt8 → Exchange

/-- A network without any route. -/
def unreachable : Network := fun target _ =>
  .failed s!"failed to connect to {target.text}: Network is unreachable (os error 101)"

/-- The sockets of a host, or why there are none, and the time that it takes to look them up. -/
structure Lookup where
  after : Duration
  found : Except String (List SocketAddress)

/-- How hosts that are no IP literals are looked up, with the port that is wanted. -/
abbrev NameService := Host → UInt16 → Lookup

def noNameService : NameService := fun _ _ => ⟨0, .error "no name service"⟩

/-- The socket of a resolver, after the time that the lookup takes. An IP literal is not looked
up, and of several sockets the first one is taken. -/
def resolve (names : NameService) (a : Address) : Duration × Except String SocketAddress :=
  match a.socket? with
  | some target => (0, .ok target)
  | none =>
    let lookup := names a.host a.port
    match lookup.found with
    | .error reason => (lookup.after, .error s!"failed to resolve {a.host.text}: {reason}")
    | .ok [] => (lookup.after, .error s!"{a.host.text} did not resolve to any address")
    | .ok (target :: _) => (lookup.after, .ok target)

/-- The most bytes of a datagram that are read. -/
def maxDatagram : Nat := 4096

/-- The response codes that show that a resolver does not carry the domain, with their names. -/
def refusal? : Nat → Option String
  | 2 => some "Server Failure"
  | 5 => some "Query Refused"
  | _ => none

/-- What a response says about its resolver. -/
def judge (code : Nat) (after : Duration) : Response :=
  match refusal? code with
  | some name => .failure s!"resolver answered {name}"
  | none => .success after

/-- How datagrams are read as messages. -/
abbrev Decoder := List UInt8 → Option Dns.Message

/-- Waiting for the response to a query. -/
structure Waiting where
  decode : Decoder
  /-- The id of the query. -/
  id : UInt16
  budget : Duration
  /-- The part of the budget that was used up before the query was sent. -/
  spent : Duration

namespace Waiting

/-- What a datagram says in answer to the query, if it is a response to it. -/
def judge? (w : Waiting) (d : Datagram) : Option Response :=
  match w.decode (d.bytes.take maxDatagram) with
  | some m => if m.id = w.id && m.isResponse then some (judge m.code d.after) else none
  | none => none

/-- What the first response among the datagrams says, and when it arrives. -/
def verdict? (w : Waiting) : List Datagram → Option (Duration × Response)
  | [] => none
  | d :: ds =>
    match w.judge? d with
    | some response => some (d.after, response)
    | none => w.verdict? ds

/-- Whether something comes within the budget when it comes this long after the query. -/
def inTime (w : Waiting) (after : Duration) : Bool := w.spent + after ≤ w.budget

/-- The answer when the budget is used up. -/
def silence (w : Waiting) : Answer :=
  ⟨some w.budget, .failure s!"no response within {wholeMillis w.budget}ms"⟩

/-- The answer when no datagram decides. -/
def giveUp (w : Waiting) : Option Breakdown → Answer
  | some b =>
    if w.inTime b.after then
      ⟨some (w.spent + b.after), .failure s!"failed to receive DNS response: {b.reason}"⟩
    else w.silence
  | none => w.silence

/-- The answer that comes of sending the query. -/
def await (w : Waiting) : Exchange → Answer
  | .failed reason => ⟨some w.spent, .failure reason⟩
  | .replies datagrams breakdown =>
    match w.verdict? (datagrams.filter (w.inTime ·.after)) with
    | some (after, response) => ⟨some (w.spent + after), response⟩
    | none => w.giveUp breakdown

end Waiting

/-- What a probe depends on besides the resolver, the tunnel and the budget. -/
structure Surroundings where
  decode : Decoder
  names : NameService
  network : Network

/-- Tests a resolver with a query of given random parts. -/
def Surroundings.probe (s : Surroundings) (label : UInt32) (id : UInt16) : Probe :=
  fun a tunnel budget =>
    let (spent, found) := resolve s.names a
    let w : Waiting := ⟨s.decode, id, budget, spent⟩
    if budget < spent then w.silence
    else
      match found with
      | .error reason => ⟨some spent, .failure reason⟩
      | .ok target =>
        match Dns.query tunnel.domain label id with
        | .error e => ⟨some spent, .failure e.message⟩
        | .ok query => w.await (s.network target query)

/-- Tests a resolver over a network. Only resolvers named by an IP literal can be reached. -/
def probe (network : Network) : UInt32 → UInt16 → Probe :=
  Surroundings.probe ⟨Dns.Message.decode?, noNameService, network⟩

end Udp
end ResolverRace
