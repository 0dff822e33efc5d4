import ResolverRace.Service.Operation
import ResolverRace.Session.Interleaving

/-!
# Services step by step

The tasks of races, their handlers and the callers of a service act side by side, each doing one
thing at a time, in any order. The task of a race records the winner before it lets go of the
session, and lets go before it tells anybody. Callers report outcomes and start races of candidates
that they took from the pool earlier; whatever they do to lists, source, pool and store may come
between any two other steps.

* `Tracked.work` — one thing that a task does, with what it records.
* `Service.Deed` — what a step has to do with outcomes, and whose step it is.
* `Service.Step`, `Service.Run` — one step, and any number of them.
-/

namespace ResolverRace

/-- The report whose winner is to be recorded next. -/
def Duty.recording? : Duty → Option Report
  | .record report => some report
  | _ => none

/-- The report whose winner the task with the number `n` is to record next. -/
def Session.recording? (s : Session) (n : Nat) : Option Report :=
  s.tasks[n]?.bind (·.duty.recording?)

/-- The task with the number `n` does the next thing. -/
def Tracked.work (probe : Probe) (n : Nat) (t : Tracked) : Option Tracked :=
  (t.session.work probe n).map fun session =>
    { t.recordWinner (t.session.recording? n) with session := session }

namespace Service

/-- What a step has to do with outcomes. -/
inductive Deed where
  /-- The task of the race with the number `n` records that `a` won it. -/
  | won (n : Nat) (a : Address)
  /-- The task of the race with the number `n` does something else. -/
  | went (n : Nat)
  /-- A caller reports whether `a` worked. -/
  | reported (a : Address) (worked : Bool)
  | other
  deriving DecidableEq

/-- What the task with the number `n` does next. -/
def deed (s : Service) (n : Nat) : Deed :=
  match (s.session.recording? n).bind (·.outcome.winner?) with
  | some winner => .won n winner.address
  | none => .went n

/-- One thing that happens to a service. -/
inductive Step (probe : Probe) (s : Service) : Deed → Service → Prop where
  | work {n : Nat} {tracked : Tracked} : s.toTracked.work probe n = some tracked →
      Step probe s (s.deed n) { s with toTracked := tracked }
  | report (a : Address) (worked : Bool) : Step probe s (.reported a worked) (s.notify a worked).1
  /-- The candidates were taken from the pool at some time. -/
  | begin {params : Params} {candidates : List Candidate} {session : Session} :
      s.session.start probe params candidates = .ok session →
      Step probe s .other { s with session := session }
  | cancel : Step probe s .other s.cancel.1
  | acknowledge : Step probe s .other s.acknowledge.1
  | deliver {n : Nat} {session : Session} : s.session.deliver n = some session →
      Step probe s .other { s with session := session }
  | pass {now : Duration} : s.session.now ≤ now → (∀ t ∈ s.session.tasks, t.SleepsUntil now) →
      Step probe s .other { s with session := { s.session with now := now } }
  | collect : Step probe s .other { s with session := { s.session with handle := none } }
  /-- A caller does something to the lists, the source, the pool or the store. -/
  | arrange (catalogue : Catalogue) (source : Source) (pool : Pool) (store : Store) :
      Step probe s .other
        { s with catalogue := catalogue, source := source, pool := pool, store := store }

/-- What was done from one state to a later one. -/
inductive Run (probe : Probe) (s : Service) : List Deed → Service → Prop where
  | refl : Run probe s [] s
  | next {deeds : List Deed} {d : Deed} {t u : Service} : Run probe s deeds t → Step probe t d u →
      Run probe s (deeds ++ [d]) u

end Service
end ResolverRace
