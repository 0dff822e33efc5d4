import ResolverRace.Service.Interleaving

/-!
# Services under a schedule

A schedule names, one after another, who does the next thing. The task of a race, its handler, the
clock and whoever cancels the race or takes its report make the moves of a session. Everybody else
acts aside: callers ask for something or start a race of candidates that they took from the pool
earlier, and lists, source, pool, memory and store may become anything else meanwhile, since only a
part of what was asked for is done or another process writes to the file. Who has nothing to do just
then leaves the service as it is.

* `Service.move` — one move, with what a task records.
* `Service.act`, `Service.actAll` — one act, and a whole schedule of them.
* `Service.Scheduled` — the services that come about.
* `Service.purged` — a schedule without what is done aside while a race is under way.
-/

namespace ResolverRace

namespace Service

/-- The service after a move; a task that has a winner to record does so. -/
def move (probe : Probe) (s : Service) : Session.Move → Service
  | .work n => { s with toTracked := (s.toTracked.work probe n).getD s.toTracked }
  | m => { s with session := s.session.move probe m }

/-- It is answered at once. A cancellation is a move, and so is what happens in a span of time. -/
def Operation.aside : Operation → Bool
  | .cancel | .advance _ | .wait => false
  | .reload _ | .selectSource .. | .upsertList .. | .removeList .. | .addEntry .. | .removeEntry ..
  | .preview .. | .notify .. | .start _ | .acknowledge => true

/-- One thing that somebody does. -/
inductive Act where
  | move (m : Session.Move)
  | ask (o : Operation) (h : o.aside = true)
  /-- A race is started of candidates that were taken from the pool at some time. -/
  | begin (params : Params) (candidates : List Candidate)
  /-- Lists, source, pool, memory and store become anything else. -/
  | meddle (catalogue : Catalogue) (source : Source) (pool : Pool) (standing : Standing)
    (store : Store)

def Act.isMove : Act → Bool
  | .move _ => true
  | .ask .. | .begin .. | .meddle .. => false

/-- The service after an act. -/
def act (probe : Probe) (s : Service) : Act → Service
  | .move m => s.move probe m
  | .ask o _ => s.serve probe o
  | .begin params candidates =>
    { s with session := ((s.session.start probe params candidates).toOption).getD s.session }
  | .meddle catalogue source pool standing store =>
    { s with
      toTracked := ⟨s.session, standing, store⟩
      catalogue := catalogue
      source := source
      pool := pool }

/-- The service after some acts. -/
def actAll (probe : Probe) (s : Service) (acts : List Act) : Service := acts.foldl (act probe) s

/-- The services that come about under schedules. -/
inductive Scheduled (probe : Probe) : Service → Prop where
  | create {settings : Settings} {store : Store} {chance : Random.Stream} {s : Service} :
      create settings store chance = .ok s → Scheduled probe s
  | act {s : Service} (a : Act) : Scheduled probe s → Scheduled probe (s.act probe a)

/-- The race with the number `n` is under way. -/
def Racing (n : Nat) (s : Service) : Prop := s.session.phase = .racing ∧ s.session.token = some n

instance (n : Nat) (s : Service) : Decidable (s.Racing n) :=
  inferInstanceAs (Decidable (_ ∧ _))

/-- A schedule without what is done aside while the race with the number `n` is under way. -/
def purged (probe : Probe) (n : Nat) : Service → List Act → List Act
  | _, [] => []
  | s, a :: acts =>
    if s.Racing n ∧ a.isMove = false then purged probe n (s.act probe a) acts
    else a :: purged probe n (s.act probe a) acts

end Service
end ResolverRace
