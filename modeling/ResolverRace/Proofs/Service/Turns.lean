import ResolverRace.Proofs.Service.Honoured

/-!
# What an operation does to the order

The order in which resolvers are tried depends on the lists, the source, what is remembered and the
live pool. Whatever is asked of a service, one of five things happens to these.

* `Service.Turn` — the five things.
* `turn_serve` — every operation does one of them, and the last two only with the outcome that it
  records.
* `Service.Remakes` — the live pool is made anew.
* `Service.Fronted` — the last winner, if it is in the pool, is in front already.
-/

namespace ResolverRace
namespace Service

/-- The lists and the source are the same. -/
structure SameLists (s s' : Service) : Prop where
  catalogue : s'.catalogue = s.catalogue
  source : s'.source = s.source

/-- What happens to the order with an outcome that is recorded, or with none. -/
inductive Turn (s s' : Service) : Option Verdict → Prop where
  /-- Lists or sources are arranged. -/
  | arranged : s.Arranges s' → s.Repools s' → Turn s s' none
  /-- Only the session or the store has changed. -/
  | passed : s.SameLists s' → s'.standing = s.standing → s'.pool = s.pool → Turn s s' none
  /-- The last winner goes to the front before a race. -/
  | favoured : s.SameLists s' → s'.standing = s.standing → s'.pool = s.favoured → Turn s s' none
  /-- A success is remembered, and the pool waits for the next race. -/
  | worked (a : Address) : s.SameLists s' → s'.standing = s.standing.succeeded a →
      s'.pool = s.pool → Turn s s' (some (.worked a))
  /-- A failure is remembered, and the resolver goes to the back at once. -/
  | failed (a : Address) : s.SameLists s' → s'.standing = s.standing.failed a →
      s'.pool = s.pool.demote a → Turn s s' (some (.failed a))

/-- The operation arranges something, and the live pool is then one that was made of the selected
source. -/
def Remakes (probe : Probe) (s : Service) (o : Operation) : Prop :=
  o.arranges = true ∧ ∃ chance, makePool (s.serve probe o).catalogue (s.serve probe o).standing
    (s.serve probe o).source chance = .ok (s.serve probe o).pool

/-! ## Where the last winner is -/

/-- If the last winner is in the live pool, it comes first. -/
def Fronted (s : Service) : Prop := ∀ a, s.standing.last = some a → s.pool.Starts a

theorem starts_of_makePool {c : Catalogue} {t : Standing} {source : Source}
    {chance : Random.Stream} {p : Pool} {a : Address} (h : makePool c t source chance = .ok p)
    (ha : t.last = some a) : p.Starts a := by
  obtain ⟨q, _, rfl, _⟩ := makePool_cases h
  exact Standing.starts_apply ha q

theorem Fronted.favoured {s : Service} (h : s.Fronted) : s.favoured = s.pool := by
  rw [Service.favoured]
  split
  · rename_i a ha
    exact (h a ha).promote_eq
  · rfl

/-! ## What an operation does -/

theorem turn_notify (s : Service) (a : Address) (worked : Bool) :
    s.Turn (s.notify a worked).1 (some (if worked then .worked a else .failed a)) := by
  cases worked with
  | true => exact .worked a ⟨rfl, rfl⟩ (s.standing.recordSuccess_fst s.store a) rfl
  | false => exact .failed a ⟨rfl, rfl⟩ rfl rfl

theorem start_standing (probe : Probe) (params : Params) (s : Service) :
    (s.start probe params).1.standing = s.standing := by
  simp only [start]
  split <;> rfl

/-- Before a race the last winner goes to the front, also if none can be started. -/
theorem start_pool (probe : Probe) (params : Params) (s : Service) :
    (s.start probe params).1.pool = s.favoured := by
  simp only [start]
  split <;> rfl

theorem turn_start (probe : Probe) (params : Params) (s : Service) :
    s.Turn (s.start probe params).1 none := by
  refine .favoured ?_ (start_standing probe params s) (start_pool probe params s)
  simp only [start]
  split <;> exact ⟨rfl, rfl⟩

/-- When time has passed, the winner of the race that ended is recorded, if there is one. -/
theorem turn_settle (s : Service) (session : Session) (news : News) :
    s.Turn { s with toTracked := s.toTracked.settle session news }
      (news.report.bind fun report =>
        report.outcome.winner?.map fun winner => .worked winner.address) := by
  rw [Tracked.settle, Tracked.recordWinner]
  cases hreport : news.report with
  | none => exact .passed ⟨rfl, rfl⟩ rfl rfl
  | some report =>
    simp only [Option.bind_some]
    cases report.outcome.winner? with
    | none => exact .passed ⟨rfl, rfl⟩ rfl rfl
    | some winner =>
      exact .worked winner.address ⟨rfl, rfl⟩ (s.standing.recordSuccess_fst s.store _) rfl

/-- Every operation does one of the five things to the order. -/
theorem turn_serve (probe : Probe) (s : Service) (o : Operation) :
    s.Turn (s.serve probe o) (s.recorded? probe o) := by
  cases harranges : o.arranges with
  | true =>
    have hnone : s.recorded? probe o = none := by
      cases o with
      | reload | selectSource | upsertList | removeList | addEntry | removeEntry | preview => rfl
      | notify | start | cancel | acknowledge | advance | wait => cases harranges
    rw [hnone]
    exact .arranged (arranges_serve probe s harranges) (repools_serve probe s harranges)
  | false =>
    cases o with
    | reload | selectSource | upsertList | removeList | addEntry | removeEntry | preview =>
      cases harranges
    | notify a worked =>
      have hturn := s.turn_notify a worked
      cases worked <;> exact hturn
    | start params => exact turn_start probe params s
    | cancel => exact .passed ⟨rfl, rfl⟩ rfl rfl
    | acknowledge => exact .passed ⟨rfl, rfl⟩ rfl rfl
    | advance span => exact s.turn_settle _ _
    | wait => exact s.turn_settle _ _

end Service
end ResolverRace
