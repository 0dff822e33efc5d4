import ResolverRace.Proofs.Session.History
import ResolverRace.Proofs.Standing.Lag

/-!
# When the store has caught up

Outcomes are recorded one after another, and the store may refuse any of their writes. An outcome
that is stored without an error brings the store up to date exactly if the key that it leaves alone
was so before; so the store is behind at most until a success and a failure have been stored after
the last refusal.

* `Noted` — the trackers with a history, and what was answered.
* `KeptSince` — since when all outcomes have been stored.
* `outcomes_catch_up` — when the store is up to date.
* `success_leaves_demoted_behind` — a success is stored, and the store is behind all the same.
-/

namespace ResolverRace

/-- An outcome that was recorded, and what was answered. -/
abbrev Note : Type := Verdict × Except Error Unit

/-- The tracker was opened on a store that can be read, and these outcomes were recorded since. -/
inductive Noted : List Note → Tracked → Prop where
  | opened {s : Store} {t : Tracked} : s.Readable → Tracked.opened s = .ok t → Noted [] t
  /-- Between the outcomes the session goes on, and the store refuses other writes; nobody else
  changes its values. -/
  | meanwhile {h : List Note} {t : Tracked} (session : Session) (store : Store) : Noted h t →
      store.Readable → store.backing = t.store.backing →
      Noted h { t with session := session, store := store }
  | worked {h : List Note} {t : Tracked} {a : Address} : Noted h t → a.Proper →
      Noted (h ++ [(.worked a, (t.recordSuccess a).2)]) (t.recordSuccess a).1
  | failed {h : List Note} {t : Tracked} {a : Address} (p : Pool) : Noted h t → a.Proper →
      Noted (h ++ [(.failed a, (t.recordFailureIn a p).2.2)]) (t.recordFailureIn a p).1

/-- Every outcome from some place on was stored, and one of these has the property; or every outcome
was stored. -/
abbrev KeptSince (P : Verdict → Prop) (h : List Note) : Prop :=
  GoodSince (fun e => e.2 = .ok ()) (fun e => P e.1) h

/-- Outcomes change the store by changes of their own. -/
theorem Tracked.recordSuccess_store (t : Tracked) (a : Address) :
    ∃ changes, (t.recordSuccess a).1.store = t.store.changeAll changes :=
  let ⟨changes, hstore, _⟩ := t.standing.recordSuccess_changes a
  ⟨changes, hstore t.store⟩

theorem Tracked.recordFailureIn_store (t : Tracked) (a : Address) (p : Pool) :
    ∃ changes, (t.recordFailureIn a p).1.store = t.store.changeAll changes :=
  let ⟨changes, hstore, _⟩ := t.standing.recordFailure_changes a
  ⟨changes, hstore t.store⟩

theorem Tracked.opened_eq_ok {s : Store} {t : Tracked} (h : Tracked.opened s = .ok t) :
    Standing.load s = .ok t.standing ∧ t.store = s ∧ t.session = .idle := by
  rw [Tracked.opened] at h
  cases hload : Standing.load s with
  | error e =>
    rw [hload] at h
    cases h
  | ok standing =>
    rw [hload] at h
    cases h
    exact ⟨rfl, rfl, rfl⟩

section

variable {h : List Note} {t : Tracked}

theorem Noted.readable (hn : Noted h t) : t.store.Readable := by
  induction hn with
  | opened hs hopened => exact (Tracked.opened_eq_ok hopened).2.1 ▸ hs
  | meanwhile _ _ _ hs _ _ => exact hs
  | @worked h t a _ _ ih =>
    obtain ⟨changes, hstore⟩ := t.recordSuccess_store a
    rw [hstore]
    exact ih.changeAll changes
  | @failed h t a p _ _ ih =>
    obtain ⟨changes, hstore⟩ := t.recordFailureIn_store a p
    rw [hstore]
    exact ih.changeAll changes

theorem Noted.proper (hn : Noted h t) : ∀ b ∈ t.standing.demoted, b.Proper := by
  induction hn with
  | opened hs hopened =>
    obtain ⟨hlast, hdemoted⟩ := (Standing.load_iff hs).1 (Tracked.opened_eq_ok hopened).1
    exact (Standing.Stored.mk hlast hdemoted).proper
  | meanwhile _ _ _ _ _ ih => exact ih
  | @worked h t a _ _ ih =>
    intro b hb
    have hb' : b ∈ (t.standing.succeeded a).demoted := by
      rw [← t.standing.recordSuccess_fst t.store a]
      exact hb
    exact ih b (Standing.mem_demoted_succeeded.1 hb').1
  | failed p _ ha ih => exact Standing.proper_demoted_failed ha ih

/-- The last winner is up to date if every outcome since some success was stored. -/
theorem Noted.lastStored (hn : Noted h t) (hk : KeptSince (∃ a, · = .worked a) h) :
    t.standing.LastStored t.store := by
  induction hn with
  | opened hs hopened =>
    obtain ⟨hload, hstore, _⟩ := Tracked.opened_eq_ok hopened
    rw [hstore]
    exact ((Standing.load_iff hs).1 hload).1
  | meanwhile _ _ _ _ hbacking ih =>
    exact (ih hk).congr rfl (by rw [Store.values, Store.values, hbacking])
  | @worked h t a _ ha ih =>
    have hlast := Standing.recordSuccess_lastStored (t := t.standing) ha (goodSince_concat hk).1
    rw [← t.standing.recordSuccess_fst t.store a] at hlast
    exact hlast
  | @failed h t a p _ _ ih =>
    obtain ⟨hok, hfrom⟩ := goodSince_concat hk
    refine (Standing.recordFailure_lastStored (t := t.standing) hok).2 (.inr (ih ?_))
    rcases hfrom with ⟨b, hb⟩ | hfrom
    · cases hb
    · exact hfrom

/-- The demoted resolvers are up to date if every outcome since some failure was stored. -/
theorem Noted.demotedStored (hn : Noted h t) (hk : KeptSince (∃ a, · = .failed a) h) :
    t.standing.DemotedStored t.store := by
  induction hn with
  | opened hs hopened =>
    obtain ⟨hload, hstore, _⟩ := Tracked.opened_eq_ok hopened
    rw [hstore]
    exact ((Standing.load_iff hs).1 hload).2
  | meanwhile _ _ _ _ hbacking ih =>
    exact (ih hk).congr rfl (by rw [Store.values, Store.values, hbacking])
  | @worked h t a hn _ ih =>
    obtain ⟨hok, hfrom⟩ := goodSince_concat hk
    have hdemoted : (t.standing.succeeded a).DemotedStored (t.recordSuccess a).1.store := by
      refine (Standing.recordSuccess_demotedStored hn.proper hok).2 (.inr (ih ?_))
      rcases hfrom with ⟨b, hb⟩ | hfrom
      · cases hb
      · exact hfrom
    rw [← t.standing.recordSuccess_fst t.store a] at hdemoted
    exact hdemoted
  | failed p hn ha _ =>
    exact Standing.recordFailure_demotedStored ha hn.proper (goodSince_concat hk).1

end

/-- A success that is stored brings the store up to date exactly if the demoted resolvers were so
before or it takes one from them, and a failure that is stored exactly if the last winner was so
before or is who failed. If every outcome since some success and every outcome since some failure
was stored, or all of them ever, the store is up to date. -/
theorem outcomes_catch_up {h : List Note} {t : Tracked} (hn : Noted h t) :
    (∀ a, a.Proper → (t.recordSuccess a).2 = .ok () →
      (Standing.load (t.recordSuccess a).1.store = .ok (t.recordSuccess a).1.standing ↔
        a ∈ t.standing.demoted ∨ t.standing.DemotedStored t.store)) ∧
    (∀ a p, a.Proper → (t.recordFailureIn a p).2.2 = .ok () →
      (Standing.load (t.recordFailureIn a p).1.store = .ok (t.recordFailureIn a p).1.standing ↔
        t.standing.last = some a ∨ t.standing.LastStored t.store)) ∧
    (KeptSince (∃ a, · = .worked a) h → KeptSince (∃ a, · = .failed a) h →
      Standing.load t.store = .ok t.standing) := by
  refine ⟨fun a ha hok => ?_, fun a p ha hok => ?_, fun hworked hfailed => ?_⟩
  · have hstanding : (t.recordSuccess a).1.standing = t.standing.succeeded a :=
      Standing.recordSuccess_fst ..
    rw [Standing.load_iff (hn.worked ha).readable, hstanding]
    have hlast := Standing.recordSuccess_lastStored (t := t.standing) ha hok
    exact (and_iff_right hlast).trans (Standing.recordSuccess_demotedStored hn.proper hok)
  · rw [Standing.load_iff (hn.failed p ha).readable]
    have hdemoted := Standing.recordFailure_demotedStored ha hn.proper hok
    exact (and_iff_left hdemoted).trans (Standing.recordFailure_lastStored hok)
  · exact (Standing.load_iff hn.readable).2 ⟨hn.lastStored hworked, hn.demotedStored hfailed⟩

/-- The store refuses the demoted resolvers once. The next failure brings it up to date, though the
success between them does not. -/
theorem outcomes_catch_up_after_refusal :
    let one : Address := ⟨.ip (.v4 ⟨1, 1, 1, 1⟩), 53⟩
    let two : Address := ⟨.name "ns.example", 53⟩
    let store : Store := .inMemory .empty ⟨[], []⟩
    let refusing : Store := { store with refusals := [⟨.put, some Store.demotedKey⟩] }
    let t₁ := (⟨.idle, .empty, refusing⟩ : Tracked).recordFailureIn one .empty
    let t₂ := ({ t₁.1 with store := { t₁.1.store with refusals := [] } } : Tracked).recordSuccess two
    let t₃ := t₂.1.recordFailureIn one .empty
    Noted [(.failed one, t₁.2.2), (.worked two, t₂.2), (.failed one, t₃.2.2)] t₃.1 ∧
      t₁.2.2 = .error (.store (.refused .put Store.demotedKey)) ∧ t₂.2 = .ok () ∧
      t₃.2.2 = .ok () ∧ Standing.load t₃.1.store = .ok t₃.1.standing ∧
      t₃.1.standing = ⟨some two, [one]⟩ := by
  intro one two store refusing t₁ t₂ t₃
  have hone : one.Proper := Address.parse_proper (s := "1.1.1.1") (by decide)
  have htwo : two.Proper := Address.parse_proper (s := "ns.example") (by decide)
  have hreadable : refusing.Readable := fun _ => rfl
  have hnoted₁ : Noted [(.failed one, t₁.2.2)] t₁.1 :=
    .failed .empty (.opened hreadable rfl) hone
  have hnoted₂ : Noted [(.failed one, t₁.2.2), (.worked two, t₂.2)] t₂.1 :=
    .worked (.meanwhile .idle { t₁.1.store with refusals := [] } hnoted₁ (fun _ => rfl) rfl) htwo
  have hnoted₃ : Noted [(.failed one, t₁.2.2), (.worked two, t₂.2), (.failed one, t₃.2.2)] t₃.1 :=
    .failed .empty hnoted₂ hone
  have hok₂ : t₂.2 = .ok () := rfl
  have hok₃ : t₃.2.2 = .ok () := rfl
  have hkept : ∀ P : Verdict → Prop, P (.worked two) ∨ P (.failed one) →
      KeptSince P [(.failed one, t₁.2.2), (.worked two, t₂.2), (.failed one, t₃.2.2)] := by
    intro P hP
    refine ⟨[(.failed one, t₁.2.2)], [(.worked two, t₂.2), (.failed one, t₃.2.2)], rfl, ?_, ?_⟩
    · exact List.forall_mem_cons.2 ⟨hok₂, List.forall_mem_singleton.2 hok₃⟩
    · rcases hP with hP | hP
      · exact .inr ⟨_, List.mem_cons_self .., hP⟩
      · exact .inr ⟨_, List.mem_cons_of_mem _ (List.mem_singleton_self _), hP⟩
  refine ⟨hnoted₃, rfl, hok₂, hok₃, ?_, by decide⟩
  exact (outcomes_catch_up hnoted₃).2.2 (hkept _ (.inl ⟨two, rfl⟩)) (hkept _ (.inr ⟨one, rfl⟩))

/-- The store refuses the demoted resolvers once. The success of another resolver is stored without
an error, and the store knows of no demoted resolver all the same. -/
theorem success_leaves_demoted_behind :
    let one : Address := ⟨.ip (.v4 ⟨1, 1, 1, 1⟩), 53⟩
    let two : Address := ⟨.ip (.v4 ⟨8, 8, 8, 8⟩), 53⟩
    let store : Store := .inMemory .empty ⟨[], []⟩
    let refusing : Store := { store with refusals := [⟨.put, some Store.demotedKey⟩] }
    let pool : Pool := ⟨[⟨one, .builtin⟩, ⟨two, .builtin⟩]⟩
    let t₁ := (⟨.idle, .empty, refusing⟩ : Tracked).recordFailureIn one pool
    let t₂ := ({ t₁.1 with store := { t₁.1.store with refusals := [] } } : Tracked).recordSuccess two
    Tracked.opened refusing = .ok ⟨.idle, .empty, refusing⟩ ∧
      t₁.2.2 = .error (.store (.refused .put Store.demotedKey)) ∧ t₂.2 = .ok () ∧
      t₂.1.standing = ⟨some two, [one]⟩ ∧ Standing.load t₂.1.store = .ok ⟨some two, []⟩ ∧
      Standing.load t₂.1.store ≠ .ok t₂.1.standing := by
  intro one two store refusing pool t₁ t₂
  have hstanding : t₂.1.standing = ⟨some two, [one]⟩ := by decide
  have htwo : two.Proper := Address.parse_proper (s := "8.8.8.8") (by decide)
  have hreadable : t₂.1.store.Readable := fun _ => rfl
  have hload : Standing.load t₂.1.store = .ok ⟨some two, []⟩ :=
    (Standing.load_iff hreadable).2 ⟨Address.parse?_text htwo, rfl⟩
  refine ⟨rfl, rfl, rfl, hstanding, hload, ?_⟩
  rw [hload, hstanding]
  simp

end ResolverRace
