import ResolverRace.Event
import ResolverRace.Race.Run

/-!
# The task of a race

A race goes on in a task of its own, which tells a handler what happens. Once the race is decided
the task records the winner, lets go of the session, and tells the change of phase and the end, in
this order. The handler handles events one by one, in the order in which they were sent.

A race whose deadline is not an instant of the clock breaks down when it is about to wait for its
first result, and its task with it: the session stays as it is, and nothing more is told.

* `Task.next` — the next thing a race does.
* `Task.course` — how a race goes on to a limit or to its end.
-/

namespace ResolverRace

/-- What the task of a race has left to do. -/
inductive Duty where
  /-- The race is undecided. -/
  | race
  /-- The race has broken down, and there is nothing left to do. -/
  | broken
  /-- The race is decided, and a winner is to be recorded. -/
  | record (report : Report)
  /-- The session is to leave the racing phase. -/
  | release (report : Report)
  /-- The change of phase is to be told. -/
  | tellPhase (report : Report)
  /-- The end is to be told. -/
  | tellEnd (report : Report)
  /-- All is told. -/
  | over (report : Report)
  deriving DecidableEq

namespace Duty

/-- The report of a race that is decided. -/
def report? : Duty → Option Report
  | .race | .broken => none
  | .record report | .release report | .tellPhase report | .tellEnd report | .over report =>
    some report

/-- The session is in the racing phase because of this task. -/
def holdsSession : Duty → Bool
  | .race | .broken | .record _ | .release _ => true
  | .tellPhase _ | .tellEnd _ | .over _ => false

end Duty

structure Task where
  race : Race
  /-- The instant at which the race was started. -/
  startedAt : Duration
  /-- The phase in which it was started. -/
  old : Phase
  /-- Its cancellation was asked for. -/
  cancelled : Bool
  duty : Duty
  /-- Events that were sent and not handled yet. -/
  queue : List Event
  /-- Events that were handled. -/
  handled : List Event
  deriving DecidableEq

namespace Task

/-- A race that is started at the instant `now` in the phase `old`. -/
def begin (probe : Probe) (params : Params) (candidates : List Candidate) (now : Duration)
    (old : Phase) : Task :=
  { race := .start probe params candidates, startedAt := now, old := old, cancelled := false,
    duty := .race, queue := [.changed old .racing], handled := [] }

def send (t : Task) (events : List Event) : Task := { t with queue := t.queue ++ events }

/-- Hands everything that was sent to the handler. -/
def deliver (t : Task) : Task := { t with queue := [], handled := t.handled ++ t.queue }

/-- What is told when the race has come to the state `race`. -/
def news (t : Task) (race : Race) : List Event :=
  (race.progress.drop t.race.tested).map .progress

/-- The race has come to the state `race`. -/
def moveOn (t : Task) (race : Race) : Task := { t.send (t.news race) with race := race }

/-- The race is decided. -/
def decide (t : Task) (race : Race) (outcome : Outcome) (elapsed : Duration) : Task :=
  { t.moveOn race with duty := .record (race.report outcome elapsed) }

/-- How the change of phase after a race is told. -/
def phaseEvent (report : Report) : Event := .changed .racing (.ofOutcome report.outcome)

/-- How the end of a race is told. -/
def endEvent (report : Report) : Event :=
  .finished report.outcome report.tested report.elapsed

/-- What is told once a race is decided. -/
def closing (report : Report) : List Event := [phaseEvent report, endEvent report]

/-- The task after all that follows the end of the race. -/
def conclude (t : Task) (report : Report) : Task :=
  { (t.send (closing report)).deliver with duty := .over report }

/-- The race has a deadline. -/
def HasDeadline (t : Task) : Prop := t.race.params.HasDeadline t.startedAt

instance (t : Task) : Decidable t.HasDeadline := inferInstanceAs (Decidable (Params.HasDeadline _ _))

/-- The next thing that happens to an undecided race of age `age`, if something is due. -/
def next (probe : Probe) (age : Duration) (t : Task) : Option Task :=
  if t.race.total = 0 then some (t.decide t.race .noCandidates 0)
  else if t.cancelled then some (t.decide t.race .cancelled age)
  else if ¬t.HasDeadline then some { t with duty := .broken }
  else if ¬t.race.params.HasBound then some (t.decide t.race t.race.params.breakdown age)
  else if age < t.race.due then none
  else
    match t.race.step probe with
    | .counted race => some (t.moveOn race)
    | .ended race outcome elapsed => some (t.decide race outcome elapsed)

/-- The race as it goes on before an instant `limit`, or to its end, unless it breaks down. Instants
count from the start of the race; `age` is the present one. -/
def course (probe : Probe) (age : Duration) (limit : Option Duration) (t : Task) : Option Course :=
  if t.duty = .broken then none
  else if t.race.total = 0 then some (.ended t.race .noCandidates 0)
  else if t.cancelled then some (.ended t.race .cancelled age)
  else if ¬t.HasDeadline then none
  else if ¬t.race.params.HasBound then some (.ended t.race t.race.params.breakdown age)
  else some (t.race.advance probe limit none)

/-- The instant at which a course ends. -/
def ending (t : Task) : Option Course → Duration
  | none | some (.undecided _) => t.startedAt
  | some (.ended _ _ elapsed) => t.startedAt + elapsed

end Task
end ResolverRace
