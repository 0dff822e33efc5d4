import ResolverRace.Proofs.Race.Prompt

/-!
# More workers are never slower

Two races of one snapshot that differ in nothing but the number of workers. Under more workers each
test starts no later, by induction on its place: a later start would mean that more workers are
busy with fewer tests. So whatever has ended in the race with fewer workers has ended in the other
one too, when nothing of it is left to come.

* `ends_le_ends` — each test ends no later under more workers.
* `overtaken` — a race that goes on beyond the end of a test has counted that test.
* `Race.Closes` — how the last state of a race gives way to its report.
* `runUnder_mono_concurrency` — the report is no later and no worse.
-/

namespace ResolverRace
namespace Race

/-! ## Each test ends no later -/

section

variable {probe : Probe} {params : Params} {candidates : List Candidate} {few many : Nat}
  {r s : Race}

theorem workers_mono (params : Params) (h : few ≤ many) (total : Nat) :
    ({ params with concurrency := few } : Params).workers total ≤
      ({ params with concurrency := many } : Params).workers total := by
  simp only [Params.workers]
  omega

/-- The race `r` with fewer workers and the race `s` with more of them. -/
structure Against (probe : Probe) (params : Params) (candidates : List Candidate)
    (few many : Nat) (r s : Race) : Prop where
  le : few ≤ many
  soundFew : r.Sound probe { params with concurrency := few } candidates
  soundMany : s.Sound probe { params with concurrency := many } candidates
  promptFew : r.Prompt (({ params with concurrency := few } : Params).workers candidates.length)
  promptMany : s.Prompt (({ params with concurrency := many } : Params).workers candidates.length)

theorem Against.ends_le_ends (h : Against probe params candidates few many r s) (place : Nat) :
    ∀ f ∈ r.dispatched, ∀ g ∈ s.dispatched, f.slot = place → g.slot = place →
      g.ends ≤ f.ends := by
  induction place using Nat.strongRecOn with
  | ind place ih =>
    intro f hf g hg hfplace hgplace
    have hslot : g.slot = f.slot := hgplace.trans hfplace.symm
    refine (h.soundFew.genuine f hf).ends_le (h.soundMany.genuine g hg) hslot
      (Nat.le_of_not_lt fun hlate => ?_)
    -- All of the many workers were busy when the one of few workers started the test.
    have hfull := h.promptMany.greedy.full g hg f.started hlate
    have hfree := h.promptFew.greedy.free f hf
    have hbusy : busy s.dispatched place f.started ≤ busy r.dispatched place f.started := by
      refine busy_le_busy h.soundMany.covers.nodup_slots fun g' hg' hlt => ?_
      have hin : g'.slot < r.dispatched.length := by
        have := h.soundFew.covers.slot_lt hf
        omega
      obtain ⟨f', hf', hf'slot⟩ := h.soundFew.covers.exists_slot hin
      exact ⟨f', hf', hf'slot, ih g'.slot hlt f' hf' g' hg' hf'slot rfl⟩
    have hworkers := workers_mono params h.le candidates.length
    rw [hgplace] at hfull
    rw [hfplace] at hfree
    omega

/-- If all that is under way with more workers ends after the instant at which a test ends with
fewer of them, then that test was counted, with the same result. -/
theorem Against.overtaken (h : Against probe params candidates few many r s) {f : Flight}
    (hf : f ∈ r.dispatched) (hlate : ∀ g ∈ s.flights, f.ends < g.ends) :
    ∃ g ∈ s.counted, g.response = f.response ∧ g.ends ≤ f.ends := by
  have hgenuine := h.soundFew.genuine f hf
  by_cases hin : f.slot < s.dispatched.length
  · obtain ⟨g, hg, hslot⟩ := h.soundMany.covers.exists_slot hin
    have hends : g.ends ≤ f.ends := h.ends_le_ends f.slot f hf g hg rfl hslot
    rcases List.mem_append.1 hg with hcounted | hflight
    · exact ⟨g, hcounted, hgenuine.response_eq (h.soundMany.genuine g hg) hslot, hends⟩
    · exact absurd (hlate g hflight) (Nat.not_lt.2 hends)
  · -- Otherwise all of the many workers are busy with candidates in front of it.
    have hplace : f.slot < r.dispatched.length := h.soundFew.covers.slot_lt hf
    have hmore : s.dispatched.length < candidates.length := by
      have := h.soundFew.dispatched_le
      omega
    have hfull : s.flights.length ≤ busy s.dispatched f.slot f.started := by
      refine length_flights_le_busy (fun g hg => ?_) fun g hg => ?_
      · have := h.soundMany.covers.slot_lt (List.mem_append_right s.counted hg)
        omega
      · exact Nat.lt_of_le_of_lt hgenuine.started_le_ends (hlate g hg)
    have hbusy : busy s.dispatched f.slot f.started ≤ busy r.dispatched f.slot f.started := by
      refine busy_le_busy h.soundMany.covers.nodup_slots fun g hg hlt => ?_
      obtain ⟨f', hf', hslot⟩ := h.soundFew.covers.exists_slot (Nat.lt_trans hlt hplace)
      exact ⟨f', hf', hslot, h.ends_le_ends g.slot f' hf' g hg hslot rfl⟩
    have hfree := h.promptFew.greedy.free f hf
    have hwork := h.soundMany.all_at_work hmore
    have hworkers := workers_mono params h.le candidates.length
    omega

/-- All that is started with more workers has been started with fewer of them, once every
candidate was. -/
theorem Against.exists_of_all (h : Against probe params candidates few many r s)
    (hall : r.dispatched.length = candidates.length) {g : Flight} (hg : g ∈ s.dispatched) :
    ∃ f ∈ r.dispatched, g.response = f.response ∧ g.ends ≤ f.ends := by
  have hin : g.slot < r.dispatched.length := by
    have hslot := h.soundMany.covers.slot_lt hg
    have hle := h.soundMany.dispatched_le
    omega
  obtain ⟨f, hf, hslot⟩ := h.soundFew.covers.exists_slot hin
  refine ⟨f, hf, ?_, h.ends_le_ends g.slot f hf g hg hslot rfl⟩
  exact (h.soundFew.genuine f hf).response_eq (h.soundMany.genuine g hg) hslot.symm

end

/-! ## The end of a race -/

/-- How a race that can be cancelled at one instant ends after its last undecided state. -/
inductive Closes (limit : Option Duration) (r : Race) : Outcome → Duration → Prop where
  | cancelled {t : Duration} : limit = some t → t ≤ r.due → Closes limit r .cancelled t
  | exhausted : limit.any (· ≤ r.due) = false → r.flights = [] →
      Closes limit r .exhausted r.clock
  | timedOut {f : Flight} {rest : List Flight} : limit.any (· ≤ r.due) = false →
      takeFirst r.flights = some (f, rest) → r.params.sessionTimeout ≤ f.ends →
      Closes limit r .timedOut r.params.sessionTimeout
  | found {f : Flight} {rest : List Flight} {latency : Duration} :
      limit.any (· ≤ r.due) = false → takeFirst r.flights = some (f, rest) →
      f.ends < r.params.sessionTimeout → f.response = .success latency →
      Closes limit r (.found f.candidate latency) f.ends

section

variable {limit : Option Duration} {probe : Probe} {params : Params}
  {candidates : List Candidate} {r : Race} {outcome : Outcome} {elapsed : Duration}

theorem due_of_flights_eq_nil (h : r.flights = []) : r.due = r.clock := by
  simp [due, takeFirst_eq_none.2 h]

theorem due_le_ends {f : Flight} (hf : f ∈ r.flights) : r.due ≤ f.ends := by
  cases ht : takeFirst r.flights with
  | none =>
    rw [takeFirst_eq_none.1 ht] at hf
    cases hf
  | some p =>
    obtain ⟨g, rest⟩ := p
    rw [due_eq ht]
    exact Nat.le_trans (Nat.min_le_right _ _) (takeFirst_le ht f hf)

theorem Closes.elapsed_le_due (h : Closes limit r outcome elapsed) : elapsed ≤ r.due := by
  cases h with
  | cancelled _ hle => exact hle
  | exhausted _ hnil => exact Nat.le_of_eq (due_of_flights_eq_nil hnil).symm
  | timedOut _ ht hd => exact Nat.le_of_eq (by rw [due_eq ht, Nat.min_eq_left hd])
  | found _ ht hd _ =>
    exact Nat.le_of_eq (by rw [due_eq ht, Nat.min_eq_right (Nat.le_of_lt hd)])

theorem Closes.elapsed_le_limit (h : Closes limit r outcome elapsed) {t : Duration}
    (hlimit : limit = some t) : elapsed ≤ t := by
  have hdue := h.elapsed_le_due
  cases h with
  | cancelled ht _ =>
    rw [hlimit] at ht
    cases ht
    exact Nat.le_refl _
  | exhausted hl _ | timedOut hl _ _ | found hl _ _ _ =>
    rw [hlimit] at hl
    simp only [Option.any_some, decide_eq_false_iff_not] at hl
    exact Nat.le_trans hdue (Nat.le_of_lt (Nat.lt_of_not_le hl))

/-- The next step of a race with candidates comes no later than the deadline. -/
theorem Sound.due_le_timeout (h : r.Sound probe params candidates) (hne : candidates ≠ []) :
    r.due ≤ params.sessionTimeout := by
  cases ht : takeFirst r.flights with
  | none =>
    -- Nothing is under way, so the clock stands at the last result, and that was in time.
    have hnil := takeFirst_eq_none.1 ht
    have hcounted : r.counted ≠ [] := by
      intro hc
      have htested := h.flights_eq_nil hnil
      rw [tested, hc] at htested
      exact hne (List.eq_nil_of_length_eq_zero htested.symm)
    rw [due_of_flights_eq_nil hnil]
    exact Nat.le_of_lt (h.inTime hcounted)
  | some p =>
    rw [due_eq ht, h.params_eq]
    exact Nat.min_le_left _ _

theorem Closes.elapsed_le_timeout (h : Closes limit r outcome elapsed)
    (hr : r.Sound probe params candidates) (hne : candidates ≠ []) :
    elapsed ≤ params.sessionTimeout :=
  Nat.le_trans h.elapsed_le_due (hr.due_le_timeout hne)

/-- A race that can be cancelled at a fixed instant only, from its last undecided state on. -/
theorem runUnder_closes (probe : Probe) (params : Params) {candidates : List Candidate}
    (hne : candidates ≠ []) {schedule : Schedule} (hbefore : schedule.before = false)
    (hfixed : schedule.duringReport = none) (hbound : params.HasBound) :
    ∃ r, r.Sound probe params candidates ∧ r.Prompt (params.workers candidates.length) ∧
      Closes schedule.instant r (runUnder probe params candidates schedule).report.outcome
        (runUnder probe params candidates schedule).report.elapsed := by
  obtain ⟨r, course, hcounts, hstops, hrun⟩ := runUnder_stops probe hne hbefore hbound
  refine ⟨r, hcounts.sound start_sound, hcounts.prompt start_prompt start_sound, ?_⟩
  rw [hrun]
  rw [hfixed] at hstops
  cases hstops with
  | limit hl =>
    obtain ⟨t, ht, hle⟩ := (Option.any_eq_true _ _).1 hl
    rw [ht]
    exact .cancelled rfl (of_decide_eq_true hle)
  | cancelled _ _ hn => cases hn
  | ended hl hstep =>
    cases step_ended hstep with
    | exhausted hnil => exact .exhausted hl hnil
    | timedOut ht hd => exact .timedOut hl ht hd
    | found ht hd hf => exact .found hl ht hd hf

end

/-! ## Two races -/

section

variable {limit : Option Duration} {probe : Probe} {params : Params}
  {candidates : List Candidate} {few many : Nat} {r s : Race} {outcome outcome' : Outcome}
  {elapsed elapsed' : Duration}

/-- When a test with fewer workers ends as a success, there is a result to come with more workers,
no later. -/
theorem Against.exists_flight (h : Against probe params candidates few many r s) {f : Flight}
    (hf : f ∈ r.dispatched) (hsuccess : f.response.isSuccess = true) :
    ∃ g ∈ s.flights, g.ends ≤ f.ends := by
  by_contra hnone
  obtain ⟨g, hg, hresponse, _⟩ := h.overtaken hf fun g hg =>
    Nat.lt_of_not_le fun hle => hnone ⟨g, hg, hle⟩
  have hfailed := h.soundMany.failed g hg
  rw [hresponse, hsuccess] at hfailed
  cases hfailed

theorem Against.found (h : Against probe params candidates few many r s) {f : Flight}
    {rest : List Flight} {latency : Duration} (hlimit : limit.any (· ≤ r.due) = false)
    (ht : takeFirst r.flights = some (f, rest)) (hd : f.ends < r.params.sessionTimeout)
    (hf : f.response = .success latency) (hs : Closes limit s outcome' elapsed') :
    elapsed' ≤ f.ends ∧ outcome'.isFound = true := by
  have hmem : f ∈ r.flights := (takeFirst_perm ht).subset (List.mem_cons_self ..)
  obtain ⟨g, hg, hle⟩ := h.exists_flight (List.mem_append_right r.counted hmem) (by rw [hf]; rfl)
  have hdue : s.due ≤ f.ends := Nat.le_trans (due_le_ends hg) hle
  refine ⟨Nat.le_trans hs.elapsed_le_due hdue, ?_⟩
  rw [due_eq ht, Nat.min_eq_right (Nat.le_of_lt hd)] at hlimit
  -- Neither a cancellation nor the deadline comes before the end of that test.
  cases hs with
  | cancelled ht hle =>
    rw [ht] at hlimit
    exact absurd (Nat.le_trans hle hdue) (of_decide_eq_false hlimit)
  | exhausted _ hnil =>
    rw [hnil] at hg
    cases hg
  | timedOut _ ht' hd' =>
    rw [h.soundFew.params_eq] at hd
    rw [h.soundMany.params_eq] at hd'
    have hlate := Nat.le_trans hd' (Nat.le_trans (takeFirst_le ht' g hg) hle)
    exact absurd hlate (Nat.not_le.2 hd)
  | found => rfl

theorem Against.exhausted (h : Against probe params candidates few many r s)
    (hne : candidates ≠ []) (hlimit : limit.any (· ≤ r.due) = false) (hnil : r.flights = [])
    (hs : Closes limit s outcome' elapsed') :
    elapsed' ≤ r.clock ∧ outcome' = .exhausted := by
  have htested : r.tested = candidates.length := h.soundFew.flights_eq_nil hnil
  have hcounted : r.dispatched = r.counted := by rw [dispatched, hnil, List.append_nil]
  have hall : r.dispatched.length = candidates.length := by rw [hcounted, ← htested, tested]
  have hclock : r.clock < params.sessionTimeout := by
    refine h.soundFew.inTime fun hc => hne (List.eq_nil_of_length_eq_zero ?_)
    rw [← htested, tested, hc, List.length_nil]
  -- Every candidate was tested, so each test with more workers has its like with fewer of them.
  have hmany : ∀ g ∈ s.dispatched, g.response.isSuccess = false ∧ g.ends ≤ r.clock := by
    intro g hg
    obtain ⟨f, hf, hresponse, hle⟩ := h.exists_of_all hall hg
    rw [hcounted] at hf
    rw [hresponse]
    exact ⟨h.soundFew.failed f hf, Nat.le_trans hle (h.soundFew.passed f hf)⟩
  have hfirst : ∀ g rest, takeFirst s.flights = some (g, rest) → g ∈ s.dispatched := by
    intro g rest ht
    exact List.mem_append_right _ ((takeFirst_perm ht).subset (List.mem_cons_self ..))
  have hdue : s.due ≤ r.clock := by
    cases ht : takeFirst s.flights with
    | none =>
      rw [due_of_flights_eq_nil (takeFirst_eq_none.1 ht)]
      rcases h.promptMany.clock with hzero | ⟨g, hg, hclock'⟩
      · rw [hzero]
        exact Nat.zero_le _
      · rw [← hclock']
        exact (hmany g (List.mem_append_left _ hg)).2
    | some p =>
      obtain ⟨g, rest⟩ := p
      rw [due_eq ht]
      exact Nat.le_trans (Nat.min_le_right _ _) (hmany g (hfirst g rest ht)).2
  refine ⟨Nat.le_trans hs.elapsed_le_due hdue, ?_⟩
  rw [due_of_flights_eq_nil hnil] at hlimit
  cases hs with
  | cancelled ht hle =>
    rw [ht] at hlimit
    exact absurd (Nat.le_trans hle hdue) (of_decide_eq_false hlimit)
  | exhausted => rfl
  | timedOut _ ht hd =>
    rw [h.soundMany.params_eq] at hd
    have hlate := Nat.le_trans hd (hmany _ (hfirst _ _ ht)).2
    exact absurd hlate (Nat.not_le.2 hclock)
  | found _ ht _ hf =>
    have hfailed := (hmany _ (hfirst _ _ ht)).1
    rw [hf] at hfailed
    cases hfailed

theorem Against.noWorse (h : Against probe params candidates few many r s)
    (hne : candidates ≠ []) (hr : Closes limit r outcome elapsed)
    (hs : Closes limit s outcome' elapsed') :
    elapsed' ≤ elapsed ∧ (outcome.isFound = true → outcome'.isFound = true) ∧
      (outcome = .exhausted → outcome' = .exhausted) := by
  cases hr with
  | cancelled ht _ => exact ⟨hs.elapsed_le_limit ht, by simp [Outcome.isFound], by simp⟩
  | exhausted hlimit hnil =>
    obtain ⟨hle, hout⟩ := h.exhausted hne hlimit hnil hs
    exact ⟨hle, by simp [Outcome.isFound], fun _ => hout⟩
  | timedOut =>
    have htimeout : elapsed' ≤ ({ params with concurrency := many } : Params).sessionTimeout :=
      hs.elapsed_le_timeout h.soundMany hne
    rw [h.soundFew.params_eq]
    exact ⟨htimeout, by simp [Outcome.isFound], by simp⟩
  | found hlimit ht hd hf =>
    obtain ⟨hle, hout⟩ := h.found hlimit ht hd hf hs
    exact ⟨hle, fun _ => hout, by simp⟩

end

end Race

/-- One report is no later than another and no worse. -/
structure Report.NoWorse (better worse : Report) : Prop where
  elapsed : better.elapsed ≤ worse.elapsed
  found : worse.outcome.isFound = true → better.outcome.isFound = true
  exhausted : worse.outcome = .exhausted → better.outcome = .exhausted

theorem Report.NoWorse.refl (report : Report) : report.NoWorse report :=
  ⟨Nat.le_refl _, id, id⟩

namespace Race

/-- A race that is cancelled at a fixed instant, or never, is no later and no worse with more
workers. -/
theorem runUnder_mono_concurrency (probe : Probe) (params : Params)
    (candidates : List Candidate) {schedule : Schedule} (hfixed : schedule.duringReport = none)
    {few many : Nat} (hle : few ≤ many) :
    (runUnder probe { params with concurrency := many } candidates schedule).report.NoWorse
      (runUnder probe { params with concurrency := few } candidates schedule).report := by
  by_cases hempty : candidates.isEmpty = true
  · rw [runUnder, runUnder, if_pos hempty, if_pos hempty]
    exact .refl _
  · by_cases hbefore : schedule.before = true
    · rw [runUnder, runUnder, if_neg hempty, if_neg hempty, if_pos hbefore, if_pos hbefore]
      exact .refl _
    · have hne : candidates ≠ [] := fun hc => hempty (List.isEmpty_iff.2 hc)
      have hbefore' : schedule.before = false := Bool.eq_false_iff.2 hbefore
      -- How many workers there are makes no difference to the bound of a test.
      by_cases hbound : params.HasBound
      · obtain ⟨r, hr, hrp, hrc⟩ :=
          runUnder_closes probe { params with concurrency := few } hne hbefore' hfixed hbound
        obtain ⟨s, hs, hsp, hsc⟩ :=
          runUnder_closes probe { params with concurrency := many } hne hbefore' hfixed hbound
        have hagainst : Against probe params candidates few many r s := ⟨hle, hr, hs, hrp, hsp⟩
        obtain ⟨helapsed, hfound, hexhausted⟩ := hagainst.noWorse hne hrc hsc
        exact ⟨helapsed, hfound, hexhausted⟩
      · have hno : ∀ concurrency, ¬({ params with concurrency := concurrency } : Params).HasBound :=
          fun _ => hbound
        rw [runUnder_broken probe hne hbefore' (hno many),
          runUnder_broken probe hne hbefore' (hno few)]
        exact .refl _

/-- With one worker the last candidate is not reached before the race is cancelled; with two it wins
before that. -/
theorem won_with_more_workers :
    let winner : Address := ⟨.name "two", 53⟩
    let probe : Probe := fun a _ _ =>
      ⟨some (millis 400), if a = winner then .success (millis 400) else .failure "refused"⟩
    let candidates : List Candidate := [⟨⟨.name "one", 53⟩, .builtin⟩, ⟨winner, .builtin⟩]
    let schedule := (Cancellation.instant (millis 500)).schedule
    let one := (runUnder probe { Params.default with concurrency := 1 } candidates schedule).report
    let two := (runUnder probe { Params.default with concurrency := 2 } candidates schedule).report
    two.NoWorse one ∧ one.elapsed = millis 500 ∧ one.outcome = .cancelled ∧
      two.elapsed = millis 400 ∧ two.outcome.isFound = true := by
  intro winner probe candidates schedule one two
  refine ⟨runUnder_mono_concurrency probe .default candidates rfl (by decide), ?_⟩
  decide +kernel

end Race
end ResolverRace
