import ResolverRace.Probe.Basic

/-!
# Outcomes of a race

How a race can end, the reason given for it, and what is reported while and after it runs.
-/

namespace ResolverRace

inductive Outcome where
  /-- A candidate answered that it works. -/
  | found (candidate : Candidate) (latency : Duration)
  /-- Every candidate failed. -/
  | exhausted
  /-- The time for the whole race was used up. -/
  | timedOut
  | cancelled
  /-- There was nobody to test. -/
  | noCandidates
  deriving DecidableEq

namespace Outcome

def isFound : Outcome → Bool
  | .found .. => true
  | _ => false

def winner? : Outcome → Option Candidate
  | .found candidate _ => some candidate
  | _ => none

/-- Why the race ended, for people. -/
def reason : Outcome → String
  | .found candidate latency => s!"{candidate} answered in {wholeMillis latency}ms"
  | .exhausted => "all resolvers failed"
  | .timedOut => "selection timed out"
  | .cancelled => "selection cancelled"
  | .noCandidates => "no resolvers to test"

/-- The outcome in few words. -/
def text : Outcome → String
  | .found candidate _ => s!"found {candidate}"
  | .exhausted => "exhausted"
  | .timedOut => "timed out"
  | .cancelled => "cancelled"
  | .noCandidates => "no candidates"

end Outcome

/-- What is told after each counted result. -/
structure Progress where
  /-- Results counted so far, this one included. -/
  tested : Nat
  /-- Candidates in the race. -/
  total : Nat
  candidate : Candidate
  response : Response
  deriving DecidableEq

/-- What is told after a race. -/
structure Report where
  outcome : Outcome
  /-- Results that were counted. -/
  tested : Nat
  total : Nat
  elapsed : Duration
  deriving DecidableEq

end ResolverRace
