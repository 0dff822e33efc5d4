import ResolverRace.Error
import ResolverRace.Session.Task

/-!
# Sessions

A session runs at most one race at a time. Starting a race and asking for its cancellation only
take note; the race goes on in its task when time passes, and everything that is due up to and
including the new instant happens then. A race whose cancellation was asked for ends before
anything else.

* `Session.start`, `Session.cancel`, `Session.acknowledge` — what a caller can ask for.
* `Session.advance`, `Session.wait` — time passes; the news are the events of a race in order,
  its last one the only `Event.finished`.
-/

namespace ResolverRace

structure Session where
  now : Duration
  phase : Phase
  /-- The number of the race that can be cancelled. -/
  token : Option Nat
  /-- The tasks of the races, in the order in which they were started. -/
  tasks : List Task
  /-- The number of the race that was started last, until somebody has waited for it. -/
  handle : Option Nat
  deriving DecidableEq

/-- What a session tells when time passes. -/
structure News where
  events : List Event
  /-- The report of the race that ended. -/
  report : Option Report
  deriving DecidableEq

namespace News

def none : News := ⟨[], .none⟩

end News

namespace Session

def idle : Session := ⟨0, .idle, none, [], none⟩

/-- Starts a race, unless one is under way. -/
def start (probe : Probe) (params : Params) (candidates : List Candidate) (s : Session) :
    Except Error Session :=
  if s.phase.isActive then .error .alreadyRacing
  else
    let number := s.tasks.length
    .ok { s with
      phase := .racing
      token := some number
      tasks := s.tasks ++ [.begin probe params candidates s.now s.phase]
      handle := some number }

/-- Asks for the cancellation of the race under way; tells whether there is one. -/
def cancel (s : Session) : Session × Bool :=
  match s.phase, s.token with
  | .racing, some n =>
    ({ s with tasks := s.tasks.modify n fun t => { t with cancelled := true } }, true)
  | _, _ => (s, false)

/-- Takes note of the end of a race; tells whether one had ended. -/
def acknowledge (s : Session) : Session × Bool :=
  if s.phase.isTerminal then ({ s with phase := .idle }, true) else (s, false)

/-- The task of the race under way, and its number. -/
def current? (s : Session) : Option (Nat × Task) :=
  s.token.bind fun n => s.tasks[n]?.map (n, ·)

/-- The session after the task of the race under way has let go of it. -/
def release (s : Session) (report : Report) : Session :=
  { s with phase := .ofOutcome report.outcome, token := none }

/-- The session at the instant `now`, after its race went on and all that follows was done. -/
def settle (s : Session) (n : Nat) (t : Task) (now : Duration) : Option Course → Session × News
  | none =>
    ({ s with now := now, tasks := s.tasks.set n { t.deliver with duty := .broken } },
      ⟨t.queue, none⟩)
  | some (.undecided race) =>
    ({ s with now := now, tasks := s.tasks.set n (t.moveOn race).deliver },
      ⟨t.queue ++ t.news race, none⟩)
  | some (.ended race outcome elapsed) =>
    let report := race.report outcome elapsed
    let s := s.release report
    let concluded := (t.decide race outcome elapsed).conclude report
    ({ s with now := now, tasks := s.tasks.set n concluded },
      ⟨t.queue ++ t.news race ++ Task.closing report, some report⟩)

/-- Lets a span of time pass. -/
def advance (probe : Probe) (span : Duration) (s : Session) : Session × News :=
  let now := s.now + span
  match s.current? with
  | some (n, t) =>
    s.settle n t now
      (t.course probe (s.now - t.startedAt) (some (now - t.startedAt + 1)))
  | none => ({ s with now := now }, .none)

/-- Lets time pass up to the end of the race under way, if there is one. -/
def finish (probe : Probe) (s : Session) : Session × News :=
  match s.current? with
  | some (n, t) =>
    let course := t.course probe (s.now - t.startedAt) none
    s.settle n t (max s.now (t.ending course)) course
  | none => (s, .none)

/-- The report of the race that was started last, until somebody has waited for it. -/
def uncollected (s : Session) : Option Report := do
  (← s.tasks[← s.handle]?).duty.report?

/-- Waits for the end of the race that was started last and takes its report, which can be taken
once. A race that has broken down has none. -/
def wait (probe : Probe) (s : Session) : Session × News × Option Report :=
  let (s, news) := s.finish probe
  ({ s with handle := none }, news, s.uncollected)

end Session
end ResolverRace
