import ResolverRace.Race.Outcome

/-!
# The race

Candidates are tested in their order by a bounded number of workers; a worker takes the next
candidate at the instant its last test ended. Results are counted one at a time, the earliest
first. The first success wins. A test that has not ended within its budget and a grace period
counts as failed at that instant.

What happens at one instant can happen in many orders. Here it happens in one of them: results are
counted in order of dispatch, a worker takes its next candidate right after its result is counted,
and the end of the race comes before it. `Race.Interleaving` has all the orders.

All instants are counted from the start of the race.

* `Params.workers` — how many tests run at once.
* `Params.HasBound`, `Params.HasDeadline` — what a race adds up is a time that there is.
* `Flight.launch` — what becomes of a test once it is started.
* `takeFirst` — whose result comes next.
* `Race.step` — the race up to the next result, or to its end.
-/

namespace ResolverRace

/-- What a race may use. -/
structure Params where
  /-- Time budget of one test. -/
  probeTimeout : Duration
  /-- Time budget of the race. -/
  sessionTimeout : Duration
  /-- How many tests may run at once; brought into the range from 1 to 10. -/
  concurrency : Nat
  tunnel : Tunnel
  deriving DecidableEq, Repr

namespace Params

def minConcurrency : Nat := 1

def maxConcurrency : Nat := 10

/-- What a test may take beyond its budget. -/
def grace : Duration := millis 250

def default : Params := ⟨millis 3000, millis 60000, 5, ⟨"", ""⟩⟩

/-- The number of workers for `total` candidates. -/
def workers (p : Params) (total : Nat) : Nat :=
  min (min (max p.concurrency minConcurrency) maxConcurrency) total

/-- The time after which a test is given up. -/
def bound (p : Params) : Duration := p.probeTimeout + grace

/-- The bound of a test is a length of time. Otherwise a worker breaks down when it has taken a
candidate, before the test is started. -/
def HasBound (p : Params) : Prop := p.bound ≤ Duration.longest

instance (p : Params) : Decidable p.HasBound := inferInstanceAs (Decidable (_ ≤ _))

/-- The deadline of a race that begins at the instant `begunAt` of the clock is an instant.
Otherwise the race breaks down once its workers are there, and no outcome is ever told. -/
def HasDeadline (p : Params) (begunAt : Duration) : Prop :=
  begunAt + p.sessionTimeout ≤ Duration.lastInstant

instance (p : Params) (begunAt : Duration) : Decidable (p.HasDeadline begunAt) :=
  inferInstanceAs (Decidable (_ ≤ _))

/-- How a race ends whose workers break down, each with its first candidate. -/
def breakdown (p : Params) : Outcome := if p.sessionTimeout = 0 then .timedOut else .exhausted

end Params

/-- A test that was started. -/
structure Flight where
  /-- The place in the order of dispatch. -/
  slot : Nat
  candidate : Candidate
  started : Duration
  ends : Duration
  response : Response
  deriving DecidableEq

namespace Flight

/-- Starts the test of a candidate. An answer at the very bound still counts. -/
def launch (probe : Probe) (params : Params) (slot : Nat) (now : Duration) (c : Candidate) :
    Flight :=
  let answer := probe c.address params.tunnel params.probeTimeout
  let overrun : Flight :=
    ⟨slot, c, now, now + params.bound,
      .failure s!"probe exceeded {wholeMillis params.probeTimeout}ms"⟩
  match answer.after with
  | none => overrun
  | some delay =>
    if delay ≤ params.bound then ⟨slot, c, now, now + delay, answer.response⟩ else overrun

end Flight

/-- The reports of counted results in a race of `total` candidates. -/
def progressOf (total : Nat) (counted : List Flight) : List Progress :=
  (counted.zipIdx 1).map fun (f, tested) => ⟨tested, total, f.candidate, f.response⟩

/-- Separates the flight that ends first from the others; of several the one in front. -/
def takeFirst : List Flight → Option (Flight × List Flight)
  | [] => none
  | f :: fs =>
    match takeFirst fs with
    | none => some (f, fs)
    | some (g, rest) => if f.ends ≤ g.ends then some (f, fs) else some (g, f :: rest)

/-- A race that is not decided yet. -/
structure Race where
  params : Params
  total : Nat
  /-- Candidates that nobody has taken. -/
  waiting : List Candidate
  /-- Tests under way, in order of dispatch. -/
  flights : List Flight
  /-- Results counted so far, in the order in which they were counted. -/
  counted : List Flight
  /-- The instant of the last counted result. -/
  clock : Duration
  deriving DecidableEq

/-- One more result, or the end of the race. -/
inductive Step where
  | counted (race : Race)
  | ended (race : Race) (outcome : Outcome) (elapsed : Duration)

namespace Race

/-- Starts tests of the first `n` waiting candidates. -/
def dispatch (probe : Probe) (params : Params) (now : Duration) :
    (n slot : Nat) → List Candidate → List Flight × List Candidate
  | 0, _, waiting => ([], waiting)
  | _ + 1, _, [] => ([], [])
  | n + 1, slot, c :: waiting =>
    let (flights, waiting) := dispatch probe params now n (slot + 1) waiting
    (Flight.launch probe params slot now c :: flights, waiting)

/-- The race at its first instant: every worker has taken a candidate. -/
def start (probe : Probe) (params : Params) (candidates : List Candidate) : Race :=
  let (flights, waiting) :=
    dispatch probe params 0 (params.workers candidates.length) 0 candidates
  { params := params, total := candidates.length, waiting := waiting, flights := flights,
    counted := [], clock := 0 }

/-- How many results have been counted. -/
def tested (r : Race) : Nat := r.counted.length

/-- How many results are still to come if nothing ends the race. -/
def outstanding (r : Race) : Nat := r.waiting.length + r.flights.length

/-- Counts a result. -/
def count (r : Race) (f : Flight) (rest : List Flight) : Race :=
  { r with flights := rest, counted := r.counted ++ [f], clock := f.ends }

/-- The worker that has just become free takes the next candidate. -/
def refill (probe : Probe) (r : Race) : Race :=
  let (flights, waiting) :=
    dispatch probe r.params r.clock 1 (r.total - r.waiting.length) r.waiting
  { r with flights := r.flights ++ flights, waiting := waiting }

/-- The instant of the next step. -/
def due (r : Race) : Duration :=
  match takeFirst r.flights with
  | none => r.clock
  | some (f, _) => min r.params.sessionTimeout f.ends

/-- The next step, if nobody cancels before it. The deadline comes before a result of the same
instant. -/
def step (probe : Probe) (r : Race) : Step :=
  match takeFirst r.flights with
  | none => .ended r .exhausted r.clock
  | some (f, rest) =>
    if r.params.sessionTimeout ≤ f.ends then .ended r .timedOut r.params.sessionTimeout
    else
      match f.response with
      | .success latency => .ended (r.count f rest) (.found f.candidate latency) f.ends
      | .failure _ => .counted ((r.count f rest).refill probe)

/-- The reports of the counted results. -/
def progress (r : Race) : List Progress := progressOf r.total r.counted

/-- Tests that were started before the instant `elapsed`, or whose result was counted, in order
of dispatch. -/
def calls (r : Race) (elapsed : Duration) : List Flight :=
  let started := r.counted ++ r.flights.filter (·.started < elapsed)
  started.mergeSort fun f g => f.slot ≤ g.slot

end Race
end ResolverRace
