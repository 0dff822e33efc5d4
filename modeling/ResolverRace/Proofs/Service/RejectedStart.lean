import ResolverRace.Proofs.Pool.Moves
import ResolverRace.Proofs.Service.Turns

/-!
# What a rejected start changes

A start that is rejected because a race is under way has moved the last winner to the front of the
live pool before. This changes the pool only if a success has been recorded since the pool was made
and since a start was asked for last. Nothing else changes, and the race under way goes on as it
would have gone on.

* `Service.Settled` — the last winner, if it is in the pool, is in front already;
  `Settled.favoured`.
* `Service.IgnoresPool` — what comes to the same with any live pool, with one lemma for each
  operation; `serve_pool`.
* `Service.Rejects`, `Service.heard` — later operations until a race is started, and what is told
  meanwhile.
* `rejected_start` — what a rejected start changes.
* `rejected_start_reorders` — a start that is rejected after a success was reported.
-/

namespace ResolverRace

namespace Service

/-- Since the live pool was made, or a start was asked for, no success has been recorded. -/
inductive Settled : Service → Prop where
  | create {settings : Settings} {store : Store} {chance : Random.Stream} {s : Service} :
      create settings store chance = .ok s → Settled s
  | made {s : Service} (probe : Probe) (o : Operation) : s.Remakes probe o →
      Settled (s.serve probe o)
  | started (probe : Probe) (params : Params) (s : Service) : Settled (s.start probe params).1
  | serve {s : Service} (probe : Probe) (o : Operation) : Settled s →
      (∀ a, s.recorded? probe o ≠ some (.worked a)) → Settled (s.serve probe o)
  | elsewhere {s : Service} (store : Store) : Settled s → Settled { s with store := store }

/-- Whenever a start is asked for, a race is under way. -/
def Rejects (probe : Probe) (s : Service) : List Operation → Prop
  | [] => True
  | o :: operations =>
    (∀ params, o = .start params → s.phase = .racing) ∧ (s.serve probe o).Rejects probe operations

/-- What an operation tells of a race, and the report that it takes. -/
def told (probe : Probe) (s : Service) : Operation → List (News × Option Report)
  | .advance span => [((s.advance probe span).2, none)]
  | .wait => [(s.wait probe).2]
  | _ => []

/-- What some operations tell of a race, one after another. -/
def heard (probe : Probe) (s : Service) : List Operation → List (News × Option Report)
  | [] => []
  | o :: operations => s.told probe o ++ (s.serve probe o).heard probe operations

section

variable {s s' : Service} {v : Option Verdict} {probe : Probe}

/-! ## Where the last winner is -/

theorem Pooled.starts {t : Standing} {p q : Pool} {a : Address} (h : Pooled t p q)
    (ha : t.last = some a) (hp : p.Starts a) : q.Starts a := by
  cases h with
  | kept => exact hp
  | emptied => exact Pool.starts_empty a
  | made hmade => exact starts_of_makePool hmade ha

theorem fronted_of_favoured (hstanding : s'.standing = s.standing) (hpool : s'.pool = s.favoured) :
    s'.Fronted := by
  intro a ha
  rw [hstanding] at ha
  rw [hpool, favoured, ha]
  exact s.pool.starts_promote a

theorem Turn.fronted (ht : s.Turn s' v) (hv : ∀ a, v ≠ some (.worked a)) (h : s.Fronted) :
    s'.Fronted := by
  cases ht with
  | arranged harranges _ =>
    intro a ha
    rw [harranges.standing] at ha
    exact harranges.pool.starts ha (h a ha)
  | passed _ hstanding hpool =>
    rw [Fronted, hstanding, hpool]
    exact h
  | favoured _ hstanding hpool => exact fronted_of_favoured hstanding hpool
  | worked a => exact absurd rfl (hv a)
  | failed a _ hstanding hpool =>
    intro b hb
    rw [hstanding, Standing.failed] at hb
    rw [hpool]
    split at hb
    · cases hb
    · rename_i hlast
      exact (h b hb).demote fun he => hlast (he ▸ hb)

theorem Settled.fronted (h : Settled s) : s.Fronted := by
  induction h with
  | create hs => exact fun a ha => starts_of_makePool (create_cases hs).2.2.2.2.2 ha
  | made _ _ hremakes =>
    obtain ⟨_, chance, hmade⟩ := hremakes
    exact fun a ha => starts_of_makePool hmade ha
  | started probe params s =>
    exact fronted_of_favoured (start_standing probe params s) (start_pool probe params s)
  | serve probe o _ hv ih => exact (turn_serve probe _ o).fronted hv ih
  | elsewhere _ _ ih => exact ih

/-! ## What does not depend on the live pool -/

/-- With another live pool the same comes of a service, but for the live pool. -/
def IgnoresPool (f : Service → Service) : Prop :=
  ∀ s p, ∃ q, f { s with pool := p } = { f s with pool := q }

theorem ignoresPool_reload (chance : Random.Stream) :
    IgnoresPool fun s => (s.reload chance).1 := by
  intro s p
  simp only [reload]
  cases withStoredLists s.catalogue s.store with
  | error e => exact ⟨p, rfl⟩
  | ok c =>
    have hsame : ({ s with pool := p, catalogue := c } : Service).rebuilt chance =
        ({ s with catalogue := c } : Service).rebuilt chance := rfl
    simp only [hsame]
    cases ({ s with catalogue := c } : Service).rebuilt chance with
    | error e => exact ⟨.empty, rfl⟩
    | ok t => exact ⟨t.pool, rfl⟩

theorem ignoresPool_selectSource (source : Source) (chance : Random.Stream) :
    IgnoresPool fun s => (s.selectSource source chance).1 := by
  intro s p
  have hsame : ({ s with pool := p } : Service).saveSource source =
      ({ (s.saveSource source).1 with pool := p }, (s.saveSource source).2) := rfl
  simp only [selectSource, hsame]
  cases makePool s.catalogue s.standing source chance with
  | error e => exact ⟨p, rfl⟩
  | ok made =>
    obtain ⟨t, result⟩ := s.saveSource source
    cases result with
    | error e => exact ⟨p, rfl⟩
    | ok => exact ⟨made, rfl⟩

theorem ignoresPool_afterEdit (id : String) (chance : Random.Stream) :
    IgnoresPool fun s => (s.afterEdit id chance).1 := by
  intro s p
  have hsame : ({ s with pool := p } : Service).rebuilt chance = s.rebuilt chance := rfl
  simp only [afterEdit, hsame]
  split
  · cases s.rebuilt chance with
    | error e => exact ⟨p, rfl⟩
    | ok t => exact ⟨t.pool, rfl⟩
  · exact ⟨p, rfl⟩

theorem ignoresPool_editList {α : Type} (l : UserList) (answer : α) (chance : Random.Stream) :
    IgnoresPool fun s => (s.editList l answer chance).1 :=
  fun s p => ignoresPool_afterEdit l.id chance { s with catalogue := s.catalogue.upsert l } p

theorem ignoresPool_upsertList (l : UserList) (chance : Random.Stream) :
    IgnoresPool fun s => (s.upsertList l chance).1 := by
  intro s p
  simp only [upsertList]
  split
  · exact ⟨p, rfl⟩
  · exact ignoresPool_editList l _ chance s p

theorem ignoresPool_addEntry (id entry : String) (chance : Random.Stream) :
    IgnoresPool fun s => (s.addEntry id entry chance).1 := by
  intro s p
  simp only [addEntry]
  split
  · exact ⟨p, rfl⟩
  · split
    · exact ⟨p, rfl⟩
    · exact ⟨p, rfl⟩
    · exact ignoresPool_editList _ true chance s p

theorem ignoresPool_removeEntry (id : String) (a : Address) (chance : Random.Stream) :
    IgnoresPool fun s => (s.removeEntry id a chance).1 := by
  intro s p
  simp only [removeEntry]
  split
  · exact ⟨p, rfl⟩
  · split
    · exact ignoresPool_editList _ true chance s p
    · exact ⟨p, rfl⟩

theorem ignoresPool_removeList (id : String) (chance : Random.Stream) :
    IgnoresPool fun s => (s.removeList id chance).1 := by
  intro s p
  simp only [removeList]
  split
  · exact ⟨p, rfl⟩
  · split
    · let t : Service := { s with catalogue := s.catalogue.remove id, source := .builtin }
      have hsame : ({ t with pool := p } : Service).rebuilt chance = t.rebuilt chance := rfl
      simp only [t] at hsame
      simp only [hsame]
      exact ⟨_, rfl⟩
    · exact ⟨p, rfl⟩

/-- An operation ignores the live pool, unless it starts a race. -/
theorem serve_pool (probe : Probe) (s : Service) (p : Pool) (o : Operation)
    (ho : ∀ params, o = .start params → s.phase = .racing) :
    ∃ q, ({ s with pool := p } : Service).serve probe o = { s.serve probe o with pool := q } := by
  cases o with
  | reload chance => exact ignoresPool_reload chance s p
  | selectSource source chance => exact ignoresPool_selectSource source chance s p
  | upsertList l chance => exact ignoresPool_upsertList l chance s p
  | removeList id chance => exact ignoresPool_removeList id chance s p
  | addEntry id entry chance => exact ignoresPool_addEntry id entry chance s p
  | removeEntry id a chance => exact ignoresPool_removeEntry id a chance s p
  | preview => exact ⟨p, rfl⟩
  | notify a worked => cases worked <;> exact ⟨_, rfl⟩
  | start params =>
    have hrejected : ∀ candidates,
        s.session.start probe params candidates = .error .alreadyRacing := fun candidates =>
      (Session.start_eq_error_iff probe params candidates s.session).2 (ho params rfl)
    simp only [serve, start, hrejected]
    exact ⟨_, rfl⟩
  | cancel | acknowledge | advance | wait => exact ⟨p, rfl⟩

theorem serveAll_pool (probe : Probe) (s : Service) (p : Pool) (operations : List Operation)
    (h : s.Rejects probe operations) :
    ({ s with pool := p } : Service).heard probe operations = s.heard probe operations ∧
      ∃ q, ({ s with pool := p } : Service).serveAll probe operations =
        { s.serveAll probe operations with pool := q } := by
  -- After each operation the two services differ in their pools again.
  induction operations generalizing s p with
  | nil => exact ⟨rfl, p, rfl⟩
  | cons o operations ih =>
    obtain ⟨q, hq⟩ := serve_pool probe s p o h.1
    obtain ⟨hheard, r, hr⟩ := ih (s.serve probe o) q h.2
    have htold : ({ s with pool := p } : Service).told probe o = s.told probe o := by
      cases o <;> rfl
    refine ⟨?_, r, ?_⟩
    · rw [heard, heard, htold, hq, hheard]
    · rw [serveAll, List.foldl_cons, hq]
      exact hr

theorem start_rejected {params : Params} (h : (s.start probe params).2 = .error .alreadyRacing) :
    s.phase = .racing ∧ (s.start probe params).1 = { s with pool := s.favoured } := by
  simp only [start] at h ⊢
  cases hstart : s.session.start probe params s.favoured.candidates with
  | ok session =>
    rw [hstart] at h
    cases h
  | error e =>
    rw [hstart] at h
    obtain rfl : e = .alreadyRacing := Except.error.inj h
    exact ⟨(Session.start_eq_error_iff _ _ _ _).1 hstart, rfl⟩

end

/-- A rejected start moves the last winner to the front of the live pool, where it already is if no
success has been recorded since the pool was made and since a start was asked for last. Nothing else
changes, and until another race is started the same is told of the race under way, and the same
comes of everything but the live pool, whatever is asked of the service and however much time
passes. -/
theorem rejected_start {probe : Probe} {params : Params} {s : Service}
    (h : (s.start probe params).2 = .error .alreadyRacing) :
    let s' := (s.start probe params).1
    s' = { s with pool := s'.pool } ∧
    (s.standing.last = none → s'.pool = s.pool) ∧
    (∀ a, s.standing.last = some a → s.pool.MovedToFront a s'.pool) ∧
    (Settled s → s' = s) ∧
    ∀ operations, s.Rejects probe operations →
      s'.heard probe operations = s.heard probe operations ∧
      s'.serveAll probe operations =
        { s.serveAll probe operations with pool := (s'.serveAll probe operations).pool } := by
  intro s'
  have hs' : s' = { s with pool := s.favoured } := (start_rejected h).2
  refine ⟨by rw [hs'], fun hnone => ?_, fun a ha => ?_, fun hsettled => ?_,
    fun operations hrejects => ?_⟩
  · rw [hs']
    simp only [favoured, hnone]
  · rw [hs']
    simp only [favoured, ha]
    exact s.pool.promote_moved a
  · rw [hs', hsettled.fronted.favoured]
  · obtain ⟨hheard, q, hq⟩ := serveAll_pool probe s s.favoured operations hrejects
    rw [hs', hq]
    exact ⟨hheard, rfl⟩

/-- Twice in a row a start is asked for. The second one is rejected and changes nothing. -/
theorem rejected_start_after_start :
    let settings : Settings := { Settings.default with
      selection := { Selection.default with source := .custom "home" }
      lists := [⟨"home", "Home", ["one", "two"]⟩] }
    let chance : Random.Stream := ⟨fun _ => 0, 0⟩
    let probe : Probe := fun _ _ _ => ⟨none, .failure ""⟩
    ∃ s s', create settings (.inMemory .empty .empty) chance = .ok s ∧
      s' = (s.start probe .default).1 ∧ (s'.start probe .default).2 = .error .alreadyRacing ∧
      (s'.start probe .default).1 = s' := by
  intro settings chance probe
  have hrun : (create settings (.inMemory .empty .empty) chance).toOption.map (fun s =>
      ((s.start probe .default).1.start probe .default).2) = some (.error .alreadyRacing) := by
    simp only [settings, chance, probe]
    decide +kernel
  obtain ⟨s, hs, hrejected⟩ := Option.map_eq_some_iff.1 hrun
  exact ⟨s, (s.start probe .default).1, eq_ok_of_toOption hs, rfl, hrejected,
    (rejected_start hrejected).2.2.2.1 (.started probe .default s)⟩

/-- While a race is under way, the second resolver of the pool is reported to work. A start that is
rejected then moves it to the front. -/
theorem rejected_start_reorders :
    let settings : Settings := { Settings.default with
      selection := { Selection.default with source := .custom "home" }
      lists := [⟨"home", "Home", ["one", "two"]⟩] }
    let chance : Random.Stream := ⟨fun _ => 0, 0⟩
    let probe : Probe := fun _ _ _ => ⟨none, .failure ""⟩
    let one : Address := ⟨.name "one", 53⟩
    let two : Address := ⟨.name "two", 53⟩
    ∃ s s', create settings (.inMemory .empty .empty) chance = .ok s ∧
      s' = s.serveAll probe [.start .default, .notify two true] ∧
      s'.phase = .racing ∧ s'.pool.addresses = [one, two] ∧
      (s'.start probe .default).2 = .error .alreadyRacing ∧
      (s'.start probe .default).1.pool.addresses = [two, one] := by
  intro settings chance probe one two
  let later (s : Service) : Service := s.serveAll probe [.start .default, .notify two true]
  have hrun : (create settings (.inMemory .empty .empty) chance).toOption.map (fun s =>
      ((later s).phase, (later s).pool.addresses, ((later s).start probe .default).2,
        ((later s).start probe .default).1.pool.addresses)) =
      some (.racing, [one, two], .error .alreadyRacing, [two, one]) := by
    simp only [settings, chance, probe, one, two, later]
    decide +kernel
  obtain ⟨s, hs, hanswers⟩ := Option.map_eq_some_iff.1 hrun
  simp only [Prod.mk.injEq] at hanswers
  exact ⟨s, later s, eq_ok_of_toOption hs, rfl, hanswers⟩

end Service
end ResolverRace
