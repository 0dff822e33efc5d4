import ResolverRace.Race.Outcome
import ResolverRace.Text.Seconds

/-!
# Phases and events of a selection

A selection is idle, racing, or over in one of three ways. It tells its listeners each change of
phase, each counted result and, once, how it ended; `Event.logLine` is what a log shows of that.
-/

namespace ResolverRace

inductive Phase where
  | idle
  | racing
  | succeeded
  | failed
  | cancelled
  deriving DecidableEq, Repr

namespace Phase

/-- A race is under way. -/
def isActive : Phase → Bool
  | .racing => true
  | _ => false

/-- The selection is over and waits to be acknowledged. -/
def isTerminal : Phase → Bool
  | .succeeded | .failed | .cancelled => true
  | _ => false

/-- The phase after a race. -/
def ofOutcome : Outcome → Phase
  | .found .. => .succeeded
  | .cancelled => .cancelled
  | .exhausted | .timedOut | .noCandidates => .failed

def text : Phase → String
  | .idle => "Idle"
  | .racing => "Testing resolvers..."
  | .succeeded => "Resolver found"
  | .failed => "No working resolver"
  | .cancelled => "Cancelled"

instance : ToString Phase := ⟨text⟩

end Phase

inductive Event where
  | changed (old new : Phase)
  | progress (p : Progress)
  | finished (outcome : Outcome) (tested : Nat) (elapsed : Duration)
  deriving DecidableEq

inductive LogLevel where
  | debug
  | info
  | warn
  deriving DecidableEq, Repr

namespace Event

def isFinished : Event → Bool
  | .finished .. => true
  | _ => false

/-- The line of a counted result. -/
def progressLine (p : Progress) : String :=
  match p.response.reason? with
  | none => s!"[{p.tested}/{p.total}] {p.candidate} ok"
  | some reason => s!"[{p.tested}/{p.total}] {p.candidate} failed: {reason}"

/-- The line of an event in the log, and how loud it is. -/
def logLine : Event → LogLevel × String
  | .changed old new => (.info, s!"Selection state: {old} -> {new}")
  | .progress p => (if p.response.isSuccess then .info else .debug, progressLine p)
  | .finished outcome tested elapsed =>
    (if outcome.isFound then .info else .warn,
      s!"Selection finished after {tested} probes in {Text.secondsText elapsed}s: " ++
        outcome.reason)

end Event
end ResolverRace
