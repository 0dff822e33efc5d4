import ResolverRace.Proofs.Service.Calls

/-!
# A failure that is reported after a win sticks

Before anybody can see that a race was won, its winner has been recorded, once and for all. So when
the winner is reported to have failed after that, no task comes late and takes the failure back: the
resolver stays demoted, and is not the last winner, until a race that was started later is won by it
or a caller reports that it worked.

* `Standing.Deposed` — what a failure leaves, and what other outcomes leave of that.
* `Service.Sticks` — what callers can rely on at any moment, whatever order all act in.
* `failure_sticks` — it holds after every run of a service that was made anew.
-/

namespace ResolverRace

namespace Standing

/-- The resolver is demoted, and not the last winner. -/
structure Deposed (t : Standing) (a : Address) : Prop where
  last : t.last ≠ some a
  demoted : a ∈ t.demoted

variable {t : Standing} {a : Address}

theorem deposed_failed (t : Standing) (a : Address) : (t.failed a).Deposed a := by
  refine ⟨?_, mem_demoted_failed.2 (.inr rfl)⟩
  show (if t.last = some a then none else t.last) ≠ some a
  split
  · simp
  · assumption

/-- Only a success of the resolver takes its failure back. -/
theorem Deposed.note {v : Verdict} (h : t.Deposed a) (hv : v ≠ .worked a) :
    (t.note v).Deposed a := by
  cases v with
  | worked b =>
    have hne : a ≠ b := by
      rintro rfl
      exact hv rfl
    refine ⟨fun hlast => hne (Option.some.inj hlast).symm, ?_⟩
    exact mem_demoted_succeeded.2 ⟨h.demoted, hne⟩
  | failed b =>
    refine ⟨?_, mem_demoted_failed.2 (.inl h.demoted)⟩
    show (if t.last = some b then none else t.last) ≠ some a
    split
    · simp
    · exact h.last

theorem Deposed.foldl {vs : List Verdict} (h : t.Deposed a) (hvs : .worked a ∉ vs) :
    (vs.foldl Standing.note t).Deposed a := by
  induction vs generalizing t with
  | nil => exact h
  | cons v vs ih =>
    rw [List.mem_cons, not_or] at hvs
    exact ih (h.note (Ne.symm hvs.1)) hvs.2

end Standing

namespace Service

/-- What holds of a service after some deeds, if `start` was remembered before them. -/
structure Sticks (probe : Probe) (start : Standing) (deeds : List Deed) (s : Service) : Prop where
  /-- The outcomes among the deeds tell what is remembered. -/
  standing : s.standing = (verdicts deeds).foldl Standing.note start
  /-- In the phase that follows a win it is seen that the race that was started last was won. -/
  phase : s.phase = .succeeded → ∃ n, n + 1 = s.session.tasks.length ∧ s.session.SeenWon n
  /-- If it is seen that a race was won, its winner has been recorded once. If the winner is reported
  to have failed at any time after that, no task records the winner of this race or of an earlier one,
  and until the winner is recorded again, by a later race or a report, the failure counts. -/
  seen : ∀ n, s.session.SeenWon n → ∃ a, s.session.winner? n = some a ∧ winsOf n deeds = [a] ∧
    ∀ (before after : List Deed) (t u : Service), Run probe s before t →
      Run probe (t.notify a false).1 after u →
      (∀ m b, .won m b ∈ after → n < m) ∧ (.worked a ∉ verdicts after → u.standing.Deposed a)
  /-- A race that has not been won has recorded nothing. -/
  unwon : ∀ n, s.session.winner? n = none → winsOf n deeds = []
  /-- Nothing else that a task does changes what is remembered or stored. -/
  went : ∀ n t, Step probe s (.went n) t → t.standing = s.standing ∧ t.store = s.store

section

variable {probe : Probe} {s s' : Service} {deeds : List Deed} {n : Nat} {a : Address}

theorem recorded?_idle (n : Nat) : Session.idle.recorded? n = none := rfl

/-- A failure that is reported after the winner was recorded. -/
theorem sticks_of_recorded {before after : List Deed} {t u : Service} (hs : Sane probe s.session)
    (ha : s.session.recorded? n = some a) (hbefore : Run probe s before t)
    (hafter : Run probe (t.notify a false).1 after u) :
    (∀ m b, .won m b ∈ after → n < m) ∧ (.worked a ∉ verdicts after → u.standing.Deposed a) := by
  have hreport : Run probe s (before ++ [.reported a false]) (t.notify a false).1 :=
    .next hbefore (.report a false)
  have hrecorded : (t.notify a false).1.session.recorded? n = some a := by
    have hcount := hreport.recorded n
    rw [hreport.winsOf_eq_nil ha, ha] at hcount
    cases hlater : (t.notify a false).1.session.recorded? n with
    | none =>
      rw [hlater] at hcount
      cases hcount
    | some b =>
      rw [hlater] at hcount
      exact congrArg some (List.head_eq_of_cons_eq hcount).symm
  refine ⟨fun m b hwon => hafter.won_lt (hreport.sane hs) hrecorded hwon, fun hnot => ?_⟩
  have hfailed : (t.notify a false).1.standing.Deposed a := t.standing.deposed_failed a
  rw [hafter.standing]
  exact hfailed.foldl hnot

/-- After any run of a service that has not raced before. -/
theorem Run.sticks (h : Run probe s deeds s') (hidle : s.session = .idle) :
    s'.Sticks probe s.standing deeds := by
  have hsane : Sane probe s'.session := by
    refine h.sane ?_
    rw [hidle]
    exact ⟨Session.idle_sound probe, Session.idle_latest⟩
  have hcount : ∀ n, winsOf n deeds = (s'.session.recorded? n).toList := by
    intro n
    have hrecorded := h.recorded n
    rw [hidle, recorded?_idle] at hrecorded
    exact hrecorded
  refine ⟨h.standing, fun hphase => ?_, fun n hseen => ?_, fun n hnone => ?_,
    fun n t hstep => hstep.went⟩
  · obtain ⟨n, a, hlast, _⟩ := hsane.latest.succeeded hphase
    exact ⟨n, hlast, .inl ⟨hphase, hlast⟩⟩
  · obtain ⟨a, ha⟩ := Session.recorded_of_seenWon hsane.sound hsane.latest hseen
    refine ⟨a, Session.winner?_of_recorded ha, by rw [hcount, ha]; rfl, ?_⟩
    intro before after t u hbefore hafter
    exact sticks_of_recorded hsane ha hbefore hafter
  · rw [hcount]
    cases ha : s'.session.recorded? n with
    | none => rfl
    | some a =>
      rw [Session.winner?_of_recorded ha] at hnone
      cases hnone

end

/-- After every run of a service that was made anew, in whatever order tasks, handlers and callers
acted, failures stick that are reported after a win. All that is asked of the service one operation
after another is such a run. -/
theorem failure_sticks (probe : Probe) {settings : Settings} {store : Store}
    {chance : Random.Stream} {s₀ : Service} (h : create settings store chance = .ok s₀) :
    (∀ deeds s, Run probe s₀ deeds s → s.Sticks probe s₀.standing deeds) ∧
      ∀ operations, ∃ deeds, Run probe s₀ deeds (s₀.serveAll probe operations) := by
  obtain ⟨_, hidle, _, _, _, _⟩ := create_cases h
  refine ⟨fun deeds s hrun => hrun.sticks hidle, fun operations => ?_⟩
  have hquiet : s₀.session.Quiet probe := hidle ▸ Session.idle_quiet probe
  exact (run_serveAll hquiet operations).1

/-- A race is won, the winner fails, the end of the race is acknowledged, and another resolver
works. -/
theorem failure_sticks_after_win :
    let settings : Settings := { Settings.default with
      selection := { Selection.default with source := .custom "home" }
      lists := [⟨"home", "Home", ["one", "two"]⟩] }
    let store : Store := .inMemory .empty .empty
    let chance : Random.Stream := ⟨fun _ => 0, 0⟩
    let one : Address := ⟨.name "one", 53⟩
    let two : Address := ⟨.name "two", 53⟩
    let probe : Probe := fun a _ _ => ⟨some 0, if a = two then .success 0 else .failure "refused"⟩
    ∃ s₀, create settings store chance = .ok s₀ ∧
      let s := s₀.serveAll probe [.start .default, .wait]
      let u := ((s.notify two false).1.acknowledge.1.notify one true).1
      s.phase = .succeeded ∧ s.session.SeenWon 0 ∧ s.session.winner? 0 = some two ∧
        (∃ deeds, Run probe s₀ deeds s ∧ winsOf 0 deeds = [two]) ∧
        Run probe (s.notify two false).1 [.other, .reported one true] u ∧
        u.standing.Deposed two := by
  intro settings store chance one two probe
  obtain ⟨s₀, hs₀⟩ : ∃ s₀, create settings store chance = .ok s₀ := ⟨_, rfl⟩
  refine ⟨s₀, hs₀, ?_⟩
  intro s u
  have hwon : (create settings store chance).toOption.map (fun s₀ =>
      let s := s₀.serveAll probe [.start .default, .wait]
      (s.phase, s.session.tasks.length, s.session.winner? 0)) =
      some (.succeeded, 1, some two) := by
    simp only [settings, store, chance, probe, two]
    decide +kernel
  rw [hs₀] at hwon
  obtain ⟨hphase, hrest⟩ := Prod.mk.inj (Option.some.inj hwon)
  obtain ⟨hlength, hwinner⟩ := Prod.mk.inj hrest
  have hseen : s.session.SeenWon 0 := .inl ⟨hphase, hlength.symm⟩
  obtain ⟨hall, hcalls⟩ := failure_sticks probe hs₀
  obtain ⟨deeds, hrun⟩ := hcalls [.start .default, .wait]
  obtain ⟨a, ha, hwins, hsticks⟩ := (hall deeds s hrun).seen 0 hseen
  obtain rfl : two = a := Option.some.inj (hwinner.symm.trans ha)
  have hafter : Run probe (s.notify two false).1 [.other, .reported one true] u :=
    .next (.next .refl .acknowledge) (.report one true)
  refine ⟨hphase, hseen, hwinner, ⟨deeds, hrun, hwins⟩, hafter, ?_⟩
  exact (hsticks [] _ s u .refl hafter).2 (by decide)

end Service
end ResolverRace
