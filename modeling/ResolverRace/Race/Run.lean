import ResolverRace.Race.Basic

/-!
# Running a race

A race is carried on step by step, up to a given instant or to its end. A cancellation at an
instant comes before everything else of that instant; a cancellation during the report of a
failure takes effect at once, and during the report of a success not at all.

* `Race.proceed` — carries a race on.
* `Race.runUnder` — a whole race under a schedule of cancellations.
* `Race.run` — a whole race under one cancellation.
-/

namespace ResolverRace

/-- How far a race was carried on. -/
inductive Course where
  /-- Undecided before the limit. -/
  | undecided (race : Race)
  | ended (race : Race) (outcome : Outcome) (elapsed : Duration)

/-- When a race is cancelled. -/
inductive Cancellation where
  | never
  /-- Before the race begins. -/
  | before
  | instant (t : Duration)
  /-- While the result with this number is being reported. -/
  | duringReport (n : Nat)
  deriving DecidableEq, Repr

/-- When the cancellation of a race is asked for; the first time counts. -/
structure Schedule where
  /-- Before the race begins. -/
  before : Bool
  instant : Option Duration
  /-- While the result with this number is being reported. -/
  duringReport : Option Nat
  deriving DecidableEq, Repr

namespace Cancellation

/-- The schedule with this cancellation alone. -/
def schedule : Cancellation → Schedule
  | .never => ⟨false, none, none⟩
  | .before => ⟨true, none, none⟩
  | .instant t => ⟨false, some t, none⟩
  | .duringReport n => ⟨false, none, some n⟩

end Cancellation

namespace Race

/-- Carries a race on through the steps before the instant `limit`, at most as many as results
are outstanding and the end after them. With `stopAfter` the race is cancelled as soon as that
many results are counted. -/
def proceed (probe : Probe) (limit : Option Duration) (stopAfter : Option Nat) :
    (steps : Nat) → Race → Course
  | 0, r => .ended r .exhausted r.clock
  | steps + 1, r =>
    if limit.any (· ≤ r.due) then .undecided r
    else
      match r.step probe with
      | .ended r outcome elapsed => .ended r outcome elapsed
      | .counted r =>
        if stopAfter = some r.tested then .ended r .cancelled r.clock
        else proceed probe limit stopAfter steps r

/-- Carries a race on to the limit or to its end. -/
def advance (probe : Probe) (limit : Option Duration) (stopAfter : Option Nat) (r : Race) :
    Course :=
  proceed probe limit stopAfter (r.outstanding + 1) r

/-- The report of a race that ended. -/
def report (r : Race) (outcome : Outcome) (elapsed : Duration) : Report :=
  ⟨outcome, r.tested, r.total, elapsed⟩

/-- A decided race: its last state and its report. -/
structure Decided where
  race : Race
  report : Report

/-- The race as it is when nothing was started. -/
def idle (params : Params) (candidates : List Candidate) : Race :=
  { params := params, total := candidates.length, waiting := candidates, flights := [],
    counted := [], clock := 0 }

/-- Ends a race here and now. -/
def conclude (r : Race) (outcome : Outcome) (elapsed : Duration) : Decided :=
  ⟨r, r.report outcome elapsed⟩

/-- How a race under a schedule of cancellations ends when its workers break down: at its first
instant, at which it can be cancelled too. -/
def brokenOutcome (params : Params) (schedule : Schedule) : Outcome :=
  if schedule.instant = some 0 then .cancelled else params.breakdown

/-- Runs a race to its end under a schedule of cancellations. Its deadline has to be an instant. -/
def runUnder (probe : Probe) (params : Params) (candidates : List Candidate)
    (schedule : Schedule) : Decided :=
  if candidates.isEmpty then (idle params candidates).conclude .noCandidates 0
  else if schedule.before then (idle params candidates).conclude .cancelled 0
  else if ¬params.HasBound then
    (idle params candidates).conclude (brokenOutcome params schedule) 0
  else
    match (start probe params candidates).advance probe schedule.instant schedule.duringReport with
    | .ended r outcome elapsed => r.conclude outcome elapsed
    | .undecided r => r.conclude .cancelled (schedule.instant.getD r.clock)

/-- Runs a race to its end. -/
def run (probe : Probe) (params : Params) (candidates : List Candidate)
    (cancellation : Cancellation) : Decided :=
  runUnder probe params candidates cancellation.schedule

end Race
end ResolverRace
