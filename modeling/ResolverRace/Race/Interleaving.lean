import ResolverRace.Race.Basic

/-!
# Races step by step

The workers of a race, its supervisor and whoever cancels it act side by side. Here each of them
does one thing at a time, and what happens at one instant can happen in any order: a worker takes a
candidate, hands in a result or leaves, the supervisor counts a result or decides the race. Time
passes when none of them has anything to do.

A worker that has handed in a result takes the next candidate whether or not the supervisor has
come to count that result. The supervisor looks at the cancellation first, then at the deadline,
and then at the results in the order in which they were handed in.

* `Engine` — a race with its workers and its supervisor; `Engine.begin`.
* `Engine.Move`, `Engine.move?` — one thing that is done.
* `Engine.Run`, `Engine.play` — one thing after the other.
* `Engine.report?`, `Engine.progress` — what is told of a race.
-/

namespace ResolverRace

/-- What the supervisor of a race has come to. -/
inductive Supervisor where
  | waiting
  | decided (outcome : Outcome) (elapsed : Duration)
  /-- The deadline could not be set: there will be no outcome. -/
  | broken
  deriving DecidableEq

/-- A race whose workers and supervisor act one at a time. -/
structure Engine where
  params : Params
  total : Nat
  /-- Candidates that nobody has taken. -/
  queue : List Candidate
  /-- How many workers have no test under way and have not left. -/
  free : Nat
  /-- Tests under way, each with its worker, in order of dispatch. -/
  testing : List Flight
  /-- Tests that were started, in order of dispatch. -/
  calls : List Flight
  /-- Results that were handed in and not counted yet, in the order in which they came. -/
  sent : List Flight
  /-- Results counted so far, in the order in which they were counted. -/
  counted : List Flight
  supervisor : Supervisor
  /-- The cancellation was asked for before the race was decided. -/
  cancelled : Bool
  /-- The present instant, counted from the start of the race. -/
  clock : Duration
  deriving DecidableEq

namespace Engine

/-- What one of those who have a hand in a race does. -/
inductive Move where
  /-- A free worker takes the next candidate and starts its test. -/
  | take
  /-- A free worker leaves. -/
  | leave
  /-- The result of the `i`th of the tests under way is handed in. -/
  | send (i : Nat)
  /-- The supervisor counts a result; with `cancels` the race is cancelled while it is reported. -/
  | count (cancels : Bool)
  /-- The supervisor decides the race without a result. -/
  | close
  | cancel
  /-- Time passes up to the instant `now`. -/
  | pass (now : Duration)
  deriving DecidableEq

/-- Nobody is to take another candidate. -/
def IsStopped (e : Engine) : Prop :=
  e.cancelled = true ∨ ∃ outcome elapsed, e.supervisor = .decided outcome elapsed

instance (e : Engine) : Decidable e.IsStopped :=
  match h : e.supervisor with
  | .decided outcome elapsed => .isTrue (.inr ⟨outcome, elapsed, h⟩)
  | .waiting | .broken =>
    if hc : e.cancelled = true then .isTrue (.inl hc)
    else .isFalse (by
      rintro (hc' | ⟨_, _, hd⟩)
      · exact hc hc'
      · rw [h] at hd
        cases hd)

/-- The supervisor decides the race here and now. -/
def conclude (e : Engine) (outcome : Outcome) : Engine :=
  { e with supervisor := .decided outcome e.clock }

/-- Nobody is left whose result could still come. -/
def IsDeserted (e : Engine) : Prop := e.sent = [] ∧ e.testing = [] ∧ e.free = 0

instance (e : Engine) : Decidable e.IsDeserted := inferInstanceAs (Decidable (_ ∧ _ ∧ _))

/-- Nobody has anything to do before the instant `now`. -/
def SleepsUntil (now : Duration) (e : Engine) : Prop :=
  e.free = 0 ∧ (∀ f ∈ e.testing, now ≤ f.ends) ∧
    (e.supervisor = .waiting →
      e.cancelled = false ∧ now ≤ e.params.sessionTimeout ∧ e.sent = [] ∧ e.testing ≠ [])

instance (now : Duration) (e : Engine) : Decidable (e.SleepsUntil now) :=
  inferInstanceAs (Decidable (_ ∧ _ ∧ (_ → _ ∧ _ ∧ _ ∧ _)))

/-- A worker that breaks down is gone, and its candidate with it. -/
def take? (probe : Probe) (e : Engine) : Option Engine :=
  match e.free, e.queue with
  | free + 1, c :: queue =>
    if e.IsStopped then none
    else if e.params.HasBound then
      let f := Flight.launch probe e.params e.calls.length e.clock c
      some { e with
        queue := queue, free := free, testing := e.testing ++ [f], calls := e.calls ++ [f] }
    else some { e with queue := queue, free := free }
  | _, _ => none

def leave? (e : Engine) : Option Engine :=
  if 0 < e.free ∧ (e.IsStopped ∨ e.queue = []) then some { e with free := e.free - 1 } else none

/-- The worker leaves when the supervisor does not wait for results any more. -/
def send? (i : Nat) (e : Engine) : Option Engine :=
  match e.testing[i]? with
  | none => none
  | some f =>
    if e.clock < f.ends then none
    else if e.supervisor = .waiting then
      some { e with testing := e.testing.eraseIdx i, sent := e.sent ++ [f], free := e.free + 1 }
    else some { e with testing := e.testing.eraseIdx i }

/-- A cancellation during the report of a success comes too late. -/
def count? (cancels : Bool) (e : Engine) : Option Engine :=
  match e.sent with
  | [] => none
  | f :: rest =>
    if e.supervisor = .waiting ∧ e.cancelled = false ∧ e.clock < e.params.sessionTimeout then
      let e := { e with sent := rest, counted := e.counted ++ [f], cancelled := cancels }
      match f.response with
      | .success latency => some (e.conclude (.found f.candidate latency))
      | .failure _ => some e
    else none

def close? (e : Engine) : Option Engine :=
  if e.supervisor ≠ .waiting then none
  else if e.cancelled then some (e.conclude .cancelled)
  else if e.params.sessionTimeout ≤ e.clock then some (e.conclude .timedOut)
  else if e.IsDeserted then some (e.conclude .exhausted)
  else none

def cancel? (e : Engine) : Option Engine :=
  if e.IsStopped then none else some { e with cancelled := true }

def pass? (now : Duration) (e : Engine) : Option Engine :=
  if e.clock < now ∧ e.SleepsUntil now then some { e with clock := now } else none

/-- The race after a move, if it can be made. -/
def move? (probe : Probe) (e : Engine) : Move → Option Engine
  | .take => e.take? probe
  | .leave => e.leave?
  | .send i => e.send? i
  | .count cancels => e.count? cancels
  | .close => e.close?
  | .cancel => e.cancel?
  | .pass now => e.pass? now

/-- A race before anybody has done anything. -/
def untouched (params : Params) (candidates : List Candidate) (supervisor : Supervisor)
    (cancelled : Bool) : Engine :=
  { params := params, total := candidates.length, queue := candidates, free := 0, testing := [],
    calls := [], sent := [], counted := [], supervisor := supervisor, cancelled := cancelled,
    clock := 0 }

/-- A race that begins at the instant `begunAt` of the clock. Without candidates, or cancelled
before, it needs no workers. -/
def begin (params : Params) (candidates : List Candidate) (begunAt : Duration) (cancelled : Bool) :
    Engine :=
  if candidates = [] then untouched params candidates (.decided .noCandidates 0) cancelled
  else if cancelled then untouched params candidates (.decided .cancelled 0) cancelled
  else
    let supervisor : Supervisor := if params.HasDeadline begunAt then .waiting else .broken
    { untouched params candidates supervisor cancelled with
      free := params.workers candidates.length }

/-- From one state of a race to another by some moves. -/
inductive Run (probe : Probe) (e : Engine) : List Move → Engine → Prop where
  | nil : Run probe e [] e
  | snoc {ms : List Move} {m : Move} {e' e'' : Engine} :
      Run probe e ms e' → e'.move? probe m = some e'' → Run probe e (ms ++ [m]) e''

/-- Makes one move after the other. -/
def play (probe : Probe) (ms : List Move) (e : Engine) : Option Engine :=
  ms.foldlM (move? probe) e

/-- The report of a race that is decided. -/
def report? (e : Engine) : Option Report :=
  match e.supervisor with
  | .decided outcome elapsed => some ⟨outcome, e.counted.length, e.total, elapsed⟩
  | .waiting | .broken => none

/-- The reports of the counted results. -/
def progress (e : Engine) : List Progress := progressOf e.total e.counted

end Engine
end ResolverRace
