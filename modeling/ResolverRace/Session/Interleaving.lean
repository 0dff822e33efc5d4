import ResolverRace.Session.Basic

/-!
# Sessions step by step

The race, its task, its handler and the callers of a session act side by side. Here each of them
does one thing at a time, in any order: a task counts a result, decides, records, lets go of the
session or sends an event; a handler handles one event; a caller starts, cancels or acknowledges.
Time passes when no race has anything to do before.

* `Task.work`, `Session.work` — one thing that a task does.
* `Session.deliver` — a handler handles one event.
* `Session.Step`, `Session.Later` — one step, and any number of them.
* `Session.move` — a step, if it can be taken, of those who have a hand in a race.
* `Session.perform`, `Session.run` — calls, each followed by all that comes of it.
-/

namespace ResolverRace

namespace Task

/-- The next thing that a task does when its race is of age `age`. -/
def work (probe : Probe) (age : Duration) (t : Task) : Option Task :=
  match t.duty with
  | .race => t.next probe age
  | .record report => some { t with duty := .release report }
  | .release report => some { t with duty := .tellPhase report }
  | .tellPhase report => some { t.send [phaseEvent report] with duty := .tellEnd report }
  | .tellEnd report => some { t.send [endEvent report] with duty := .over report }
  | .broken | .over _ => none

/-- The handler handles the event that was sent first. -/
def handleOne (t : Task) : Option Task :=
  match t.queue with
  | [] => none
  | e :: rest => some { t with queue := rest, handled := t.handled ++ [e] }

/-- The race has nothing to do before the instant `now`. -/
def SleepsUntil (now : Duration) (t : Task) : Prop :=
  t.duty = .race → t.race.total ≠ 0 ∧ t.cancelled = false ∧ t.HasDeadline ∧
    t.race.params.HasBound ∧ now ≤ t.startedAt + t.race.due

instance (now : Duration) (t : Task) : Decidable (t.SleepsUntil now) :=
  inferInstanceAs (Decidable (_ → _ ∧ _ ∧ _ ∧ _ ∧ _))

end Task

namespace Session

/-- Puts a task in the place of the one with the number `n`. -/
def put (s : Session) (n : Nat) (t : Task) : Session := { s with tasks := s.tasks.set n t }

/-- What a task that does its duty does to the session. -/
def letGo (s : Session) : Duty → Session
  | .release report => s.release report
  | _ => s

/-- The task with the number `n` does the next thing. -/
def work (probe : Probe) (n : Nat) (s : Session) : Option Session :=
  match s.tasks[n]? with
  | none => none
  | some t => (t.work probe (s.now - t.startedAt)).map ((s.letGo t.duty).put n)

/-- The handler of the race with the number `n` handles an event. -/
def deliver (n : Nat) (s : Session) : Option Session :=
  match s.tasks[n]? with
  | none => none
  | some t => t.handleOne.map (s.put n)

/-- One thing that happens to a session. -/
inductive Step (probe : Probe) (s : Session) : Session → Prop where
  | start {params : Params} {candidates : List Candidate} {s' : Session} :
      s.start probe params candidates = .ok s' → Step probe s s'
  | cancel : Step probe s s.cancel.1
  | acknowledge : Step probe s s.acknowledge.1
  | work {n : Nat} {s' : Session} : s.work probe n = some s' → Step probe s s'
  | deliver {n : Nat} {s' : Session} : s.deliver n = some s' → Step probe s s'
  | pass {now : Duration} : s.now ≤ now → (∀ t ∈ s.tasks, t.SleepsUntil now) →
      Step probe s { s with now := now }
  | collect : Step probe s { s with handle := none }

/-- Who has a hand in a race. -/
inductive Move where
  /-- The task with the number `n` does the next thing. -/
  | work (n : Nat)
  /-- The handler of the race with the number `n` handles an event. -/
  | deliver (n : Nat)
  /-- Time passes up to the instant `now`. -/
  | pass (now : Duration)
  | cancel
  /-- The report of the race that was started last is taken. -/
  | collect
  deriving DecidableEq

/-- The session after a move. -/
def move (probe : Probe) (s : Session) : Move → Session
  | .work n => (s.work probe n).getD s
  | .deliver n => (s.deliver n).getD s
  | .pass now =>
    if s.now ≤ now ∧ ∀ t ∈ s.tasks, t.SleepsUntil now then { s with now := now } else s
  | .cancel => s.cancel.1
  | .collect => { s with handle := none }

/-- From one state to a later one. -/
inductive Later (probe : Probe) : Session → Session → Prop where
  | refl (s : Session) : Later probe s s
  | next {s t u : Session} : Later probe s t → Step probe t u → Later probe s u

/-- What a caller does. -/
inductive Call where
  | start (params : Params) (candidates : List Candidate)
  | cancel
  | acknowledge
  | advance (span : Duration)
  | wait

/-- The session after a call; a start that is refused changes nothing. -/
def perform (probe : Probe) (s : Session) : Call → Session
  | .start params candidates => ((s.start probe params candidates).toOption).getD s
  | .cancel => s.cancel.1
  | .acknowledge => s.acknowledge.1
  | .advance span => (s.advance probe span).1
  | .wait => (s.wait probe).1

/-- The session after some calls. -/
def run (probe : Probe) (calls : List Call) : Session := calls.foldl (perform probe) idle

end Session
end ResolverRace
