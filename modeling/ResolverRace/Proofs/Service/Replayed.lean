import ResolverRace.Proofs.Pool.Algebra
import ResolverRace.Proofs.Service.Turns

/-!
# The live pool is what a preview shows

As long as no success is recorded, the live pool of a source that draws no random words is the one
that would be made of the source now: whether failures are moved to the back one by one as they are
reported, or all of them when a pool is made, comes to the same order.

* `Catalogue.draws` — whether random words are drawn for a source.
* `Service.Unrewarded` — the runs in which no success is recorded.
* `Service.Replays` — the invariant; `Unrewarded.replays`.
* `live_pool_eq_preview` — the live pool and the preview of the selected source.
-/

namespace ResolverRace

namespace Catalogue

/-- Random words are drawn for the built-in list if it is shuffled, and for no other list. -/
def draws (c : Catalogue) : Source → Bool
  | .builtin => c.shuffles
  | .custom _ => false

/-- A pool that is loaded without random words is given by the entries of the source. -/
theorem load_congr {c c' : Catalogue} {source : Source} (hdraws : c.draws source = false)
    (hentries : c'.entries? source = c.entries? source) (hshuffles : c'.shuffles = c.shuffles)
    (chance chance' : Random.Stream) :
    (c'.load source chance').map (·.1) = (c.load source chance).map (·.1) := by
  cases source with
  | builtin =>
    have hbuiltin : c'.builtin = c.builtin := Option.some.inj hentries
    have hordered : c.shuffles = false := hdraws
    simp [load, hbuiltin, hshuffles, hordered, Except.map]
  | custom id =>
    have hfound : (c'.find? id).map (·.resolvers) = (c.find? id).map (·.resolvers) := hentries
    simp only [load]
    cases hl : c.find? id with
    | none =>
      rw [hl, Option.map_none, Option.map_eq_none_iff] at hfound
      rw [hfound]
    | some l =>
      rw [hl] at hfound
      obtain ⟨m, hm, hresolvers⟩ := Option.map_eq_some_iff.1 hfound
      simp [hm, hresolvers, find?_id hl, find?_id hm, Except.map]

end Catalogue

namespace Service

/-- A service made from any store, and what was done with it since, without a success that was
recorded. The store may become any other one meanwhile. -/
inductive Unrewarded : Service → Prop where
  | create {settings : Settings} {store : Store} {chance : Random.Stream} {s : Service} :
      create settings store chance = .ok s → Unrewarded s
  | serve {s : Service} (probe : Probe) (o : Operation) : Unrewarded s →
      (∀ a, s.recorded? probe o ≠ some (.worked a)) → Unrewarded (s.serve probe o)
  | elsewhere {s : Service} (store : Store) : Unrewarded s → Unrewarded { s with store := store }

/-- The pool made of the selected source would be the live one, if no random words are drawn for
it. -/
def Replays (s : Service) : Prop :=
  s.catalogue.draws s.source = false → s.catalogue.resolves s.source = true →
    ∀ chance, makePool s.catalogue s.standing s.source chance = .ok s.pool

section

variable {s s' : Service} {c c' : Catalogue} {t : Standing} {source : Source} {p : Pool}
  {chance : Random.Stream}

theorem makePool_eq_map (c : Catalogue) (t : Standing) (source : Source) (chance : Random.Stream) :
    makePool c t source chance =
      (((c.load source chance).map (·.1)).map fun loaded => t.apply loaded.pool).mapError
        Error.pool := by
  rw [makePool]
  cases c.load source chance <;> rfl

theorem makePool_congr (hdraws : c.draws source = false)
    (hentries : c'.entries? source = c.entries? source) (hshuffles : c'.shuffles = c.shuffles)
    (t : Standing) (chance chance' : Random.Stream) :
    makePool c' t source chance' = makePool c t source chance := by
  rw [makePool_eq_map, makePool_eq_map,
    Catalogue.load_congr hdraws hentries hshuffles chance chance']

/-! ## What happens to a live pool -/

theorem replays_of_makePool
    (h : makePool s.catalogue s.standing s.source chance = .ok s.pool) : s.Replays :=
  fun hdraws _ chance' => (makePool_congr hdraws rfl rfl s.standing chance chance').trans h

/-- What leaves alone all that a pool is made from. -/
theorem Replays.frame (h : s.Replays) (hlists : s.SameLists s')
    (hstanding : s'.standing = s.standing) (hpool : s'.pool = s.pool) : s'.Replays := by
  rw [Replays, hlists.catalogue, hlists.source, hstanding, hpool]
  exact h

theorem Repools.replays (hr : s.Repools s') (h : s.Replays) : s'.Replays := by
  cases hr with
  | kept hsource hentries hshuffles hstanding hpool =>
    have hdraws : s'.catalogue.draws s.source = s.catalogue.draws s.source := by
      cases s.source with
      | builtin => exact hshuffles
      | custom id => rfl
    have hresolves : s'.catalogue.resolves s.source = s.catalogue.resolves s.source := by
      rw [← Catalogue.isSome_entries?, ← Catalogue.isSome_entries?, hentries]
    intro hordered hfound chance
    rw [hsource, hdraws] at hordered
    rw [hsource, hresolves] at hfound
    rw [hsource, hstanding, hpool, ← h hordered hfound chance]
    exact makePool_congr hordered hentries hshuffles s.standing chance chance
  | made hpool => exact replays_of_makePool hpool
  | gone hnone _ =>
    intro _ hfound
    rw [← Catalogue.isSome_entries?, hnone] at hfound
    cases hfound

/-- A failure moves to the back in the live pool what it will move to the back in new ones. -/
theorem Replays.failed {a : Address} (h : s.Replays) (hlists : s.SameLists s')
    (hstanding : s'.standing = s.standing.failed a) (hpool : s'.pool = s.pool.demote a) :
    s'.Replays := by
  rw [Replays, hlists.catalogue, hlists.source, hstanding, hpool]
  intro hordered hfound chance
  obtain ⟨q, hnodup, happly, hmade⟩ := makePool_cases (h hordered hfound chance)
  rw [hmade, happly, Standing.apply_failed hnodup]

/-- Before a race the last winner goes to the front, where it is already. -/
theorem Replays.favoured (h : s.Replays) (hordered : s.catalogue.draws s.source = false)
    (hfound : s.catalogue.resolves s.source = true) : s.favoured = s.pool := by
  have hfronted : s.Fronted :=
    fun a ha => starts_of_makePool (h hordered hfound ⟨fun _ => 0, 0⟩) ha
  exact hfronted.favoured

theorem Turn.replays {v : Option Verdict} (ht : s.Turn s' v) (hv : ∀ a, v ≠ some (.worked a))
    (h : s.Replays) : s'.Replays := by
  cases ht with
  | arranged _ hrepools => exact hrepools.replays h
  | passed hlists hstanding hpool => exact h.frame hlists hstanding hpool
  | favoured hlists hstanding hpool =>
    rw [Replays, hlists.catalogue, hlists.source, hstanding, hpool]
    intro hordered hfound
    rw [h.favoured hordered hfound]
    exact h hordered hfound
  | worked a => exact absurd rfl (hv a)
  | failed a hlists hstanding hpool => exact h.failed hlists hstanding hpool

theorem Unrewarded.replays (h : Unrewarded s) : s.Replays := by
  induction h with
  | create hs => exact replays_of_makePool (create_cases hs).2.2.2.2.2
  | serve probe o _ hv ih => exact (turn_serve probe _ o).replays hv ih
  | elsewhere store _ ih => exact ih.frame ⟨rfl, rfl⟩ rfl rfl

end

/-- As long as no success has been recorded, the live pool of a source that can be loaded, and that
draws no random words, is what a preview of the source shows. -/
theorem live_pool_eq_preview {s : Service} (h : Unrewarded s)
    (hordered : s.catalogue.draws s.source = false)
    (hfound : s.catalogue.resolves s.source = true) (chance : Random.Stream) :
    s.preview s.source chance = .ok s.pool.candidates := by
  rw [preview, h.replays hordered hfound chance]
  rfl

/-- A store remembers a winner that is demoted as well, and twice. It fails again, and a race
starts. -/
theorem live_pool_after_stored_demotions :
    let settings : Settings := { Settings.default with
      selection := { Selection.default with source := .custom "home" }
      lists := [⟨"home", "Home", ["one", "two", "three"]⟩] }
    let values : KeyMap := .ofList [(Store.lastKey, "two:53"),
      (Store.demotedKey, Standing.encode ["two:53", "one:53", "two:53"])]
    let chance : Random.Stream := ⟨fun _ => 0, 0⟩
    let probe : Probe := fun _ _ _ => ⟨none, .failure ""⟩
    let two : Address := ⟨.name "two", 53⟩
    ∃ s, create settings (.inMemory values .empty) chance = .ok s ∧
      s.pool.addresses = [two, ⟨.name "three", 53⟩, ⟨.name "one", 53⟩] ∧
      let s' := s.serveAll probe [.notify two false, .start .default]
      s'.pool.addresses = [⟨.name "three", 53⟩, ⟨.name "one", 53⟩, two] ∧
      s'.preview s'.source chance = .ok s'.pool.candidates := by
  intro settings values chance probe two
  have hrun : (create settings (.inMemory values .empty) chance).toOption.map (fun s =>
      let s' := s.serveAll probe [.notify two false, .start .default]
      (s.pool.addresses, s'.pool.addresses, s'.catalogue.draws s'.source,
        s'.catalogue.resolves s'.source)) =
      some ([two, ⟨.name "three", 53⟩, ⟨.name "one", 53⟩],
        [⟨.name "three", 53⟩, ⟨.name "one", 53⟩, two], false, true) := by
    simp only [settings, values, chance, probe, two]
    decide +kernel
  obtain ⟨s, hs, hanswers⟩ := Option.map_eq_some_iff.1 hrun
  have hcreate : create settings (.inMemory values .empty) chance = .ok s := eq_ok_of_toOption hs
  have hfailed : Unrewarded (s.serve probe (.notify two false)) :=
    .serve probe (.notify two false) (.create hcreate) fun a ha => by cases ha
  have hstarted : Unrewarded (s.serveAll probe [.notify two false, .start .default]) :=
    .serve probe (.start .default) hfailed fun a ha => by cases ha
  refine ⟨s, hcreate, congrArg (·.1) hanswers, congrArg (·.2.1) hanswers, ?_⟩
  exact live_pool_eq_preview hstarted (congrArg (·.2.2.1) hanswers) (congrArg (·.2.2.2) hanswers)
    chance

end Service
end ResolverRace
