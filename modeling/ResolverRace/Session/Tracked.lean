import ResolverRace.Session.Basic
import ResolverRace.Standing

/-!
# Sessions that remember

A tracked session records the winner of a race before anybody can see that the race is over. When
the winner cannot be stored it is remembered all the same, and nobody is told.
-/

namespace ResolverRace

structure Tracked where
  session : Session
  standing : Standing
  store : Store
  deriving DecidableEq

namespace Tracked

/-- A session that has not raced, with what a store remembers. -/
def opened (store : Store) : Except Error Tracked :=
  (Standing.load store).map fun standing => ⟨.idle, standing, store⟩

/-- Records that a resolver worked. -/
def recordSuccess (t : Tracked) (a : Address) : Tracked × Except Error Unit :=
  let (standing, store, result) := t.standing.recordSuccess t.store a
  ({ t with standing := standing, store := store }, result)

/-- Records that a selected resolver failed. -/
def recordFailure (t : Tracked) (a : Address) : Tracked × Except Error Unit :=
  let (standing, store, result) := t.standing.recordFailure t.store a
  ({ t with standing := standing, store := store }, result)

/-- Records that a selected resolver failed, and moves it to the back of a pool. -/
def recordFailureIn (t : Tracked) (a : Address) (p : Pool) : Tracked × Pool × Except Error Unit :=
  let (t, result) := t.recordFailure a
  (t, p.demote a, result)

/-- Records the winner of a race that ended, if it has one. -/
def recordWinner (t : Tracked) (report : Option Report) : Tracked :=
  match report.bind (·.outcome.winner?) with
  | some winner => (t.recordSuccess winner.address).1
  | none => t

/-- Takes over a session after time has passed. -/
def settle (t : Tracked) (session : Session) (news : News) : Tracked :=
  { t.recordWinner news.report with session := session }

def advance (probe : Probe) (span : Duration) (t : Tracked) : Tracked × News :=
  let (session, news) := t.session.advance probe span
  (t.settle session news, news)

def wait (probe : Probe) (t : Tracked) : Tracked × News × Option Report :=
  let (session, news, report) := t.session.wait probe
  (t.settle session news, news, report)

end Tracked
end ResolverRace
