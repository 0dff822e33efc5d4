import ResolverRace.Probe.Basic

/-!
# Scripted probes

A script says for each address how it answers, and how all other addresses do.
-/

namespace ResolverRace

/-- How an address answers in a script. -/
inductive Behaviour where
  | succeed (delay : Duration)
  | fail (delay : Duration) (reason : String)
  | hang
  /-- Fails when its time budget is used up. -/
  | useBudget
  deriving DecidableEq, Repr

namespace Behaviour

def answer (b : Behaviour) (budget : Duration) : Answer :=
  match b with
  | .succeed delay => ⟨some delay, .success delay⟩
  | .fail delay reason => ⟨some delay, .failure reason⟩
  | .hang => ⟨none, .failure "hangs"⟩
  | .useBudget => ⟨some budget, .failure "timed out"⟩

end Behaviour

/-- Behaviours by address, and one for the addresses without an entry of their own. -/
structure Script where
  default : Behaviour
  entries : List (Address × Behaviour)

namespace Script

/-- The last entry of an address counts. -/
def behaviour (s : Script) (a : Address) : Behaviour :=
  match s.entries.reverse.find? (·.1 = a) with
  | some entry => entry.2
  | none => s.default

def probe (s : Script) : Probe := fun a _ budget => (s.behaviour a).answer budget

end Script
end ResolverRace
