import ResolverRace.Proofs.Pool.Ahead
import ResolverRace.Proofs.Service.Turns

/-!
# Demoted resolvers are tried after the others

A failure moves a resolver to the back at once. A success that lifts a demotion moves nobody: its
resolver stays where it is until a pool is made, or until a race is started while it is the last
winner. Everybody else who is not demoted is tried before all who are.

* `Service.Begun` — the services that begin with nobody both last winner and demoted;
  `begun_of_empty`.
* `Service.Cleared` — no demotion of a resolver was lifted since its place was brought up to date.
* `Cleared.ahead` — then no demoted resolver comes before it in the live pool.
* `demoted_raced_last` — the candidates of a race that is started.
* `lifted_demotion_raced_last` — a resolver whose demotion was lifted, raced after one who is still
  demoted.
-/

namespace ResolverRace
namespace Service

/-- A service, and what was done with it since. At its beginning the last winner was not demoted, as
it is where nothing was stored. -/
inductive Begun : Service → Prop where
  | create {settings : Settings} {store : Store} {chance : Random.Stream} {s : Service} :
      create settings store chance = .ok s →
      (∀ a, s.standing.last = some a → a ∉ s.standing.demoted) → Begun s
  | serve {s : Service} (probe : Probe) (o : Operation) : Begun s → Begun (s.serve probe o)
  | elsewhere {s : Service} (store : Store) : Begun s → Begun { s with store := store }

/-- The place of the resolver in the live pool was brought up to date: the pool was made, or a race
was asked for while it was the last winner. Since then no success has lifted a demotion of it. -/
inductive Cleared (b : Address) : Service → Prop where
  | create {settings : Settings} {store : Store} {chance : Random.Stream} {s : Service} :
      create settings store chance = .ok s →
      (∀ a, s.standing.last = some a → a ∉ s.standing.demoted) → Cleared b s
  | made {s : Service} (probe : Probe) (o : Operation) : Begun s → s.Remakes probe o →
      Cleared b (s.serve probe o)
  | started {s : Service} (probe : Probe) (params : Params) : Begun s →
      s.standing.last = some b → Cleared b (s.start probe params).1
  | serve {s : Service} (probe : Probe) (o : Operation) : Cleared b s →
      ¬(s.recorded? probe o = some (.worked b) ∧ b ∈ s.standing.demoted) →
      Cleared b (s.serve probe o)
  | elsewhere {s : Service} (store : Store) : Cleared b s → Cleared b { s with store := store }

section

variable {s s' : Service} {b : Address} {v : Option Verdict}

/-- From an empty store nothing is remembered. -/
theorem begun_of_empty {settings : Settings} {store : Store} {chance : Random.Stream}
    (hempty : ∀ key, store.get key = .ok none) (h : create settings store chance = .ok s) :
    Begun s := by
  obtain ⟨_, _, _, hload, _, _⟩ := create_cases h
  simp only [Standing.load, hempty, bind, Except.bind, pure, Except.pure] at hload
  refine .create h fun a ha => ?_
  rw [← Except.ok.inj hload] at ha
  cases ha

/-! ## What holds all the time -/

theorem Begun.live (h : Begun s) : s.Live := by
  induction h with
  | create hs _ => exact live_of_create hs
  | serve probe o _ ih => exact ih.serve probe o
  | elsewhere _ _ ih => exact ih.frame rfl rfl (.refl _)

/-- The last winner is never demoted. -/
theorem Turn.last_not_demoted (ht : s.Turn s' v)
    (h : ∀ a, s.standing.last = some a → a ∉ s.standing.demoted) :
    ∀ a, s'.standing.last = some a → a ∉ s'.standing.demoted := by
  cases ht with
  | arranged harranges _ => exact harranges.standing ▸ h
  | passed _ hstanding _ => exact hstanding ▸ h
  | favoured _ hstanding _ => exact hstanding ▸ h
  | worked a _ hstanding _ =>
    rw [hstanding]
    intro c hc hin
    exact (Standing.mem_demoted_succeeded.1 hin).2 (Option.some.inj hc).symm
  | failed a _ hstanding _ =>
    rw [hstanding]
    intro c hc hin
    rw [Standing.failed] at hc
    split at hc
    · cases hc
    · rename_i hlast
      rcases Standing.mem_demoted_failed.1 hin with hin | rfl
      · exact h c hc hin
      · exact hlast hc

theorem Begun.last_not_demoted (h : Begun s) :
    ∀ a, s.standing.last = some a → a ∉ s.standing.demoted := by
  induction h with
  | create _ hlast => exact hlast
  | serve probe o _ ih => exact (turn_serve probe _ o).last_not_demoted ih
  | elsewhere _ _ ih => exact ih

theorem Cleared.begun (h : Cleared b s) : Begun s := by
  induction h with
  | create hs hlast => exact .create hs hlast
  | made probe o hbegun _ => exact .serve probe o hbegun
  | started probe params hbegun _ => exact .serve probe (.start params) hbegun
  | serve probe o _ _ ih => exact .serve probe o ih
  | elsewhere store _ ih => exact .elsewhere store ih

/-! ## Who comes before a resolver that is not demoted -/

theorem ahead_of_makePool {c : Catalogue} {t : Standing} {source : Source} {chance : Random.Stream}
    {p : Pool} (h : makePool c t source chance = .ok p)
    (hlast : ∀ a, t.last = some a → a ∉ t.demoted) (hb : b ∉ t.demoted) : p.Ahead b t.demoted := by
  obtain ⟨q, hnodup, rfl, _⟩ := makePool_cases h
  exact Standing.ahead_apply hnodup hlast hb

theorem Pooled.ahead {t : Standing} {p q : Pool} (h : Pooled t p q)
    (hlast : ∀ a, t.last = some a → a ∉ t.demoted) (hb : b ∉ t.demoted)
    (hp : p.Ahead b t.demoted) : q.Ahead b t.demoted := by
  cases h with
  | kept => exact hp
  | emptied => exact Pool.ahead_empty b _
  | made hmade => exact ahead_of_makePool hmade hlast hb

theorem ahead_favoured {as : List Address} (h : s.pool.Ahead b as)
    (hlast : ∀ a, s.standing.last = some a → a ∉ as) : s.favoured.Ahead b as := by
  rw [favoured]
  split
  · rename_i a ha
    exact h.promote (hlast a ha)
  · exact h

/-- The last winner goes to the very front. -/
theorem ahead_favoured_last (h : Begun s) (hb : s.standing.last = some b) (as : List Address) :
    s.favoured.Ahead b as := by
  have hnodup : s.favoured.addresses.Nodup := Pool.nodup_of_perm h.live.nodup s.favoured_perm
  have hstarts : s.favoured.Starts b := by
    rw [favoured, hb]
    exact s.pool.starts_promote b
  exact hstarts.ahead hnodup as

/-- One operation, unless it lifts the demotion of the resolver. -/
theorem Turn.ahead (ht : s.Turn s' v) (h : Begun s)
    (hahead : b ∉ s.standing.demoted → s.pool.Ahead b s.standing.demoted)
    (hv : ¬(v = some (.worked b) ∧ b ∈ s.standing.demoted)) (hb : b ∉ s'.standing.demoted) :
    s'.pool.Ahead b s'.standing.demoted := by
  cases ht with
  | arranged harranges _ =>
    rw [harranges.standing] at hb ⊢
    exact harranges.pool.ahead h.last_not_demoted hb (hahead hb)
  | passed _ hstanding hpool =>
    rw [hstanding] at hb ⊢
    rw [hpool]
    exact hahead hb
  | favoured _ hstanding hpool =>
    rw [hstanding] at hb ⊢
    rw [hpool]
    exact ahead_favoured (hahead hb) h.last_not_demoted
  | worked a _ hstanding hpool =>
    rw [hstanding] at hb ⊢
    rw [hpool]
    -- Who is demoted no more is the one who worked, and that is not `b`.
    have hb' : b ∉ s.standing.demoted := by
      intro hin
      by_cases he : b = a
      · exact hv ⟨congrArg _ (he ▸ rfl), hin⟩
      · exact hb (Standing.mem_demoted_succeeded.2 ⟨hin, he⟩)
    exact (hahead hb').mono fun x hx => (Standing.mem_demoted_succeeded.1 hx).1
  | failed a _ hstanding hpool =>
    rw [hstanding] at hb ⊢
    rw [hpool]
    have hb' : b ∉ s.standing.demoted := fun hin => hb (Standing.mem_demoted_failed.2 (.inl hin))
    have hne : a ≠ b := fun he => hb (Standing.mem_demoted_failed.2 (.inr he.symm))
    refine ((hahead hb').demote h.live.nodup hne).mono fun x hx => ?_
    rcases Standing.mem_demoted_failed.1 hx with hx | rfl
    · exact List.mem_append_left _ hx
    · exact List.mem_append_right _ (List.mem_singleton_self x)

/-- If the place of a resolver is up to date and it is not demoted, nobody who is demoted comes
before it. -/
theorem Cleared.ahead (h : Cleared b s) :
    b ∉ s.standing.demoted → s.pool.Ahead b s.standing.demoted := by
  induction h with
  | create hs hlast => exact ahead_of_makePool (create_cases hs).2.2.2.2.2 hlast
  | made probe o hbegun hremakes =>
    obtain ⟨_, chance, hmade⟩ := hremakes
    exact ahead_of_makePool hmade (Begun.serve probe o hbegun).last_not_demoted
  | started probe params hbegun hlast =>
    intro _
    rw [start_pool]
    exact ahead_favoured_last hbegun hlast _
  | serve probe o hs hv ih => exact (turn_serve probe _ o).ahead hs.begun ih hv
  | elsewhere _ _ ih => exact ih

end

/-- When a race is started, every candidate that is demoted comes after every one that is not, if
that one is the last winner or no success has lifted a demotion of it since its place was brought up
to date. -/
theorem demoted_raced_last {s : Service} {b : Address} (h : Begun s)
    (hcleared : s.standing.last = some b ∨ Cleared b s) (hb : b ∉ s.standing.demoted)
    (hphase : s.phase ≠ .racing) (probe : Probe) (params : Params) :
    ∃ candidates, (s.start probe params).2 = .ok () ∧
      (s.start probe params).1.session.tasks =
        s.session.tasks ++ [.begin probe params candidates s.session.now s.phase] ∧
      candidates.Perm s.pool.candidates ∧
      ∀ (i j : Nat) (c d : Candidate), candidates[i]? = some c → candidates[j]? = some d →
        c.address = b → d.address ∈ s.standing.demoted → i < j := by
  obtain ⟨hok, htasks⟩ := start_begins hphase probe params
  have hahead : s.favoured.Ahead b s.standing.demoted := by
    rcases hcleared with hlast | hcleared
    · exact ahead_favoured_last h hlast _
    · exact ahead_favoured (hcleared.ahead hb) h.last_not_demoted
  exact ⟨s.favoured.candidates, hok, htasks, s.favoured_perm,
    fun i j c d hc hd hcb hda => hahead.lt hb hc hd hcb hda⟩

/-- Two resolvers fail, and the second one works after all. Once the pool has been made anew, it is
raced before the first one, which is still demoted. -/
theorem demoted_raced_last_in_new_pool :
    let settings : Settings := { Settings.default with
      selection := { Selection.default with source := .custom "home" }
      lists := [⟨"home", "Home", ["one", "two", "three"]⟩] }
    let chance : Random.Stream := ⟨fun _ => 0, 0⟩
    let probe : Probe := fun _ _ _ => ⟨none, .failure ""⟩
    let one : Address := ⟨.name "one", 53⟩
    let two : Address := ⟨.name "two", 53⟩
    ∃ s s', create settings (.inMemory .empty .empty) chance = .ok s ∧
      s' = s.serveAll probe [.notify one false, .notify two false, .notify two true,
        .reload chance, .notify ⟨.name "three", 53⟩ true] ∧
      one ∈ s'.standing.demoted ∧ two ∉ s'.standing.demoted ∧ s'.standing.last ≠ some two ∧
      ∃ candidates, (s'.start probe .default).2 = .ok () ∧
        (s'.start probe .default).1.session.tasks =
          s'.session.tasks ++ [.begin probe .default candidates s'.session.now s'.phase] ∧
        candidates.Perm s'.pool.candidates ∧
        ∀ (i j : Nat) (c d : Candidate), candidates[i]? = some c → candidates[j]? = some d →
          c.address = two → d.address ∈ s'.standing.demoted → i < j := by
  intro settings chance probe one two
  let three : Address := ⟨.name "three", 53⟩
  let reports : List Operation := [.notify one false, .notify two false, .notify two true]
  let made (s : Service) : Service := (s.serveAll probe reports).serve probe (.reload chance)
  let later (s : Service) : Service := (made s).serve probe (.notify three true)
  have hrun : (create settings (.inMemory .empty .empty) chance).toOption.map (fun s =>
      ((later s).standing, (later s).phase, decide (makePool (made s).catalogue
        (made s).standing (made s).source chance = .ok (made s).pool))) =
      some (⟨some three, [one]⟩, .idle, true) := by
    simp only [settings, chance, probe, one, two, three, reports, made, later]
    decide +kernel
  obtain ⟨s, hs, hanswers⟩ := Option.map_eq_some_iff.1 hrun
  simp only [Prod.mk.injEq, decide_eq_true_eq] at hanswers
  obtain ⟨hstanding, hidle, hpool⟩ := hanswers
  have hcreate : create settings (.inMemory .empty .empty) chance = .ok s := eq_ok_of_toOption hs
  have hbegun : Begun s := begun_of_empty (fun _ => rfl) hcreate
  have hreported : Begun (s.serveAll probe reports) :=
    .serve probe (.notify two true) (.serve probe (.notify two false)
      (.serve probe (.notify one false) hbegun))
  have hmade : Cleared two (made s) := .made probe (.reload chance) hreported ⟨rfl, chance, hpool⟩
  have hcleared : Cleared two (later s) :=
    .serve probe (.notify three true) hmade fun hworked =>
      absurd (Verdict.worked.inj (Option.some.inj hworked.1)) (by decide)
  have hphase : (later s).phase ≠ .racing := by
    rw [hidle]
    decide
  have hone : one ∈ (later s).standing.demoted := by
    rw [hstanding]
    exact List.mem_singleton_self one
  have htwo : two ∉ (later s).standing.demoted := by
    rw [hstanding]
    decide
  have hlast : (later s).standing.last ≠ some two := by
    rw [hstanding]
    decide
  exact ⟨s, later s, hcreate, rfl, hone, htwo, hlast,
    demoted_raced_last hcleared.begun (.inr hcleared) htwo hphase probe .default⟩

/-- Two resolvers fail, the second one works after all, and then a third one works. In the race that
is started the second one comes after the first one, which is still demoted. -/
theorem lifted_demotion_raced_last :
    let settings : Settings := { Settings.default with
      selection := { Selection.default with source := .custom "home" }
      lists := [⟨"home", "Home", ["one", "two", "three"]⟩] }
    let chance : Random.Stream := ⟨fun _ => 0, 0⟩
    let probe : Probe := fun _ _ _ => ⟨none, .failure ""⟩
    let one : Address := ⟨.name "one", 53⟩
    let two : Address := ⟨.name "two", 53⟩
    let three : Address := ⟨.name "three", 53⟩
    ∃ s s', create settings (.inMemory .empty .empty) chance = .ok s ∧
      s' = s.serveAll probe
        [.notify one false, .notify two false, .notify two true, .notify three true] ∧
      s'.standing = ⟨some three, [one]⟩ ∧ (s'.start probe .default).2 = .ok () ∧
      ∃ candidates, (s'.start probe .default).1.session.tasks =
          [.begin probe .default candidates 0 .idle] ∧
        candidates.map (·.address) = [three, one, two] := by
  intro settings chance probe one two three
  let later (s : Service) : Service := s.serveAll probe
    [.notify one false, .notify two false, .notify two true, .notify three true]
  have hrun : (create settings (.inMemory .empty .empty) chance).toOption.map (fun s =>
      ((later s).standing, (later s).phase, (later s).session.tasks, (later s).session.now,
        (later s).favoured.addresses)) =
      some (⟨some three, [one]⟩, .idle, [], 0, [three, one, two]) := by
    simp only [settings, chance, probe, one, two, three, later]
    decide +kernel
  obtain ⟨s, hs, hanswers⟩ := Option.map_eq_some_iff.1 hrun
  simp only [Prod.mk.injEq] at hanswers
  obtain ⟨hstanding, hidle, htasks, hnow, haddresses⟩ := hanswers
  have hphase : (later s).phase ≠ .racing := by
    rw [hidle]
    decide
  obtain ⟨hok, hstarted⟩ := start_begins hphase probe .default
  rw [htasks, hnow, hidle] at hstarted
  exact ⟨s, later s, eq_ok_of_toOption hs, rfl, hstanding, hok, (later s).favoured.candidates,
    hstarted, haddresses⟩

end Service
end ResolverRace
