import ResolverRace.Proofs.Race.Outcome

/-!
# The discipline of a race

Candidates are tested in their order and each at most once, never more of them at a time than there
are workers, and each test is counted at most once. At the end of every instant before the race is
decided all workers are at work, unless every candidate was taken; in the course of an instant they
need not be, and a worker whose result was handed in can be ahead of the supervisor.

* `Run.congr` — the probe is asked with the tunnel and the time budget of the race, and with nothing
  else.
* `Engine.undecidedUntil` — how long a race was undecided; `Run.last_open`: the last state in which
  it was.
* `Open.underWay_eq`, `Open.started_le_counted` — what holds at the end of every instant.
* `Engine.Disciplined`, `Engine.Steady` — what a race has to keep to in the course of an instant and
  at its end; `Run.disciplined`.
* `ahead_of_the_supervisor` — what it need not keep to in the course of an instant.
-/

namespace ResolverRace
namespace Engine

section

variable {probe other : Probe} {params : Params} {candidates : List Candidate} {e e' : Engine}
  {m : Move} {ms : List Move} {begunAt : Duration} {cancelled : Bool}

/-! ## What the probe is asked for -/

theorem move?_congr (h : Flight.launch other params = Flight.launch probe params)
    (hparams : e.params = params) (m : Move) : e.move? other m = e.move? probe m := by
  cases m with
  | take => simp only [move?, take?, hparams, h]
  | _ => rfl

/-- A probe that gives the same answers to this tunnel and this time budget makes for the same
race. -/
theorem Run.congr (h : ∀ a, other a params.tunnel params.probeTimeout =
      probe a params.tunnel params.probeTimeout)
    (hr : Run probe (begin params candidates begunAt cancelled) ms e) :
    Run other (begin params candidates begunAt cancelled) ms e := by
  have hlaunch := Flight.launch_congr h
  induction hr with
  | nil => exact .nil
  | snoc hr hm ih =>
    have hparams := (hr.sound (begin_sound probe params candidates begunAt cancelled)).params_eq
    exact .snoc ih ((move?_congr hlaunch hparams _).trans hm)

/-! ## Until the decision -/

theorem begin_calls (params : Params) (candidates : List Candidate) (begunAt : Duration)
    (cancelled : Bool) : (begin params candidates begunAt cancelled).calls = [] := by
  rw [begin]
  split
  · rfl
  · split <;> rfl

theorem Decides.calls {outcome : Outcome} (h : e.Decides m e' outcome) : e'.calls = e.calls := by
  cases h <;> rfl

theorem Decides.counted {outcome : Outcome} (h : e.Decides m e' outcome) :
    e.counted <+: e'.counted := by
  cases h with
  | found => exact List.prefix_append _ _
  | cancelled | timedOut | exhausted => exact List.prefix_rfl

/-- The instant up to which the race is or was undecided. -/
def undecidedUntil (e : Engine) : Duration :=
  match e.supervisor with
  | .decided _ elapsed => elapsed
  | .waiting | .broken => e.clock

/-- The last state in which a race was undecided, unless it was decided when it began. -/
theorem Run.last_open (hfits : params.Fits begunAt)
    (hr : Run probe (begin params candidates begunAt cancelled) ms e) :
    (e.calls = [] ∧ e.undecidedUntil = 0) ∨
    ∃ p : Engine, p.Open probe params candidates ∧ p.supervisor = .waiting ∧ e.calls = p.calls ∧
      p.counted <+: e.counted ∧ e.undecidedUntil = p.clock := by
  rcases hr.cases hfits.hasDeadline with
    hw | ⟨outcome, elapsed, hbegin, hkeeps⟩ | ⟨ms₁, p, m, q, outcome, hp, hw, hd, hkeeps, hd'⟩
  · refine .inr ⟨e, hr.open hfits.hasBound hw, hw, rfl, List.prefix_rfl, ?_⟩
    rw [undecidedUntil, hw]
  · refine .inl ⟨hkeeps.calls.trans (begin_calls ..), ?_⟩
    rw [undecidedUntil, hkeeps.supervisor.trans hbegin]
    exact begin_elapsed hbegin
  · refine .inr ⟨p, hp.open hfits.hasBound hw, hw, hkeeps.calls.trans hd.calls, ?_, ?_⟩
    · rw [hkeeps.counted]
      exact hd.counted
    · rw [undecidedUntil, hd']

/-- Up to the end of the race all workers are at work at the end of every instant, unless every
candidate was taken. -/
theorem Open.underWay_eq {p : Engine} (h : p.Open probe params candidates)
    (hbound : params.HasBound) {now : Duration} (hnow : now < p.clock)
    (hmore : startedBy p.calls now < candidates.length) :
    underWay p.calls now = params.workers candidates.length := by
  refine Nat.le_antisymm (h.greedy.underWay_le h.sound.covers.nodup_slots now) ?_
  refine h.greedy.le_underWay fun hall => h.full ?_ now hnow
  have hlen : startedBy p.calls now = p.calls.length :=
    List.countP_eq_length.2 fun f hf => decide_eq_true (hall f hf)
  rw [h.sound.queue_eq hbound, ne_eq, List.drop_eq_nil_iff]
  omega

/-- At the end of every instant before the end, the tests that were started were counted or are
under way. -/
theorem Open.started_le_counted {p : Engine} (h : p.Open probe params candidates)
    (hw : p.supervisor = .waiting) {now : Duration} (hnow : now < p.clock) :
    startedBy p.calls now ≤ endedBy p.counted now + params.workers candidates.length := by
  have hended : endedBy p.calls now = endedBy p.counted now := by
    have hlater : endedBy (p.sent ++ p.testing) now = 0 := endedBy_eq_zero fun f hf => by
      rcases List.mem_append.1 hf with hf | hf
      · exact h.arrived f hf ▸ hnow
      · exact Nat.lt_of_lt_of_le hnow (h.sound.coming f hf)
    have hsplit : endedBy p.calls now = endedBy p.counted now + endedBy (p.sent ++ p.testing) now :=
      ((h.sound.calls_perm hw).symm.countP_eq _).trans List.countP_append
    omega
  have hle := startedBy_le p.calls now
  have hunder := h.greedy.underWay_le h.sound.covers.nodup_slots now
  omega

/-! ## What a race keeps to -/

/-- What a race keeps to at the end of every instant before it is decided. -/
structure Steady (params : Params) (candidates : List Candidate) (e : Engine) : Prop where
  /-- No test is started after the end. -/
  inTime : ∀ f ∈ e.calls, f.started ≤ e.undecidedUntil
  atMost : ∀ now, underWay e.calls now ≤ params.workers candidates.length
  /-- All workers are at work, unless every candidate was taken. -/
  allAtWork : ∀ now < e.undecidedUntil, startedBy e.calls now < candidates.length →
    underWay e.calls now = params.workers candidates.length
  /-- Every test was counted or is under way. -/
  ahead : ∀ now < e.undecidedUntil,
    startedBy e.calls now ≤ endedBy e.counted now + params.workers candidates.length

/-- Which tests a race has started, when it has started them and which of them it has counted, after
the moves `ms`. -/
structure Disciplined (probe : Probe) (params : Params) (candidates : List Candidate)
    (begunAt : Duration) (cancelled : Bool) (ms : List Move) (e : Engine) : Prop where
  /-- The first candidates are tested, in their order, each of them once. -/
  inOrder : e.calls.map (·.slot) = List.range e.calls.length ∧
    e.calls.map (·.candidate) = candidates.take e.calls.length ∧
    e.calls.length ≤ candidates.length
  /-- No test is started before that of an earlier candidate. -/
  inTime : e.calls.Pairwise (fun f g => f.started ≤ g.started) ∧
    ∀ f ∈ e.calls, f.started ≤ e.clock
  /-- Each test is what the probe answers to the tunnel and the time budget of the race, and nothing
  else that the probe may answer makes a difference. -/
  asked : (∀ f ∈ e.calls, f.Genuine probe params candidates) ∧
    ∀ other : Probe, (∀ a, other a params.tunnel params.probeTimeout =
      probe a params.tunnel params.probeTimeout) →
        Run other (begin params candidates begunAt cancelled) ms e
  /-- Never are more tests under way than there are workers. -/
  atMost : e.testing.length ≤ params.workers candidates.length
  /-- No test is counted twice. -/
  once : (e.counted.map (·.slot)).Nodup ∧ ∀ f ∈ e.counted, f ∈ e.calls
  /-- The reports number the counted results from one on. -/
  numbered : e.progress.map (·.tested) = List.range' 1 e.counted.length ∧
    e.progress.map (fun p => (p.candidate, p.response)) =
      e.counted.map (fun f => (f.candidate, f.response)) ∧
    ∀ p ∈ e.progress, p.total = candidates.length ∧ p.tested ≤ p.total
  /-- The tests that were started are those that were counted, those whose results wait to be
  counted, and no more than workers can be at work on. -/
  ahead : e.calls.length ≤
    e.counted.length + e.sent.length + params.workers candidates.length
  /-- This holds if the times of the race do not overflow. -/
  steady : params.Fits begunAt → e.Steady params candidates

theorem Sound.candidates_calls (h : e.Sound probe params candidates) :
    e.calls.map (·.candidate) = candidates.take e.calls.length := by
  refine List.ext_getElem? fun i => ?_
  by_cases hi : i < e.calls.length
  · have hslot : e.calls[i].slot = i := by
      have hplace := congrArg (·[i]?) h.slots
      simpa [hi] using hplace
    have hgenuine := h.genuine e.calls[i] (List.getElem_mem hi)
    rw [List.getElem?_take_of_lt hi, List.getElem?_map, List.getElem?_eq_getElem hi]
    rw [Flight.Genuine, hslot] at hgenuine
    exact hgenuine.1.symm
  · have htake : (candidates.take e.calls.length).length ≤ i :=
      Nat.le_trans (List.length_take_le ..) (Nat.le_of_not_lt hi)
    rw [List.getElem?_eq_none (by simpa using hi), List.getElem?_eq_none htake]

theorem tested_of_mem_progress {p : Progress} (hp : p ∈ e.progress) :
    p.tested ≤ e.counted.length := by
  have hmem : p.tested ∈ List.range' 1 e.progress.length :=
    numbers_progressOf e.total e.counted ▸ List.mem_map_of_mem hp
  rw [progress, length_progressOf] at hmem
  have hlt := (List.mem_range'_1.1 hmem).2
  omega

theorem Run.steady (hfits : params.Fits begunAt)
    (hr : Run probe (begin params candidates begunAt cancelled) ms e) :
    e.Steady params candidates := by
  rcases hr.last_open hfits with ⟨hcalls, huntil⟩ | ⟨p, hp, hw, hcalls, hcounted, huntil⟩
  · have hnever : ∀ now, ¬now < e.undecidedUntil := fun now => huntil ▸ Nat.not_lt_zero now
    refine ⟨?_, ?_, fun now hnow => absurd hnow (hnever now),
      fun now hnow => absurd hnow (hnever now)⟩
    · rw [hcalls]
      exact fun f hf => absurd hf List.not_mem_nil
    · rw [hcalls]
      exact fun now => Nat.zero_le _
  · refine ⟨?_, ?_, ?_, fun now hnow => ?_⟩
    · rw [hcalls, huntil]
      exact hp.sound.begun
    · rw [hcalls]
      exact hp.greedy.underWay_le hp.sound.covers.nodup_slots
    · rw [hcalls, huntil]
      exact fun now hnow => hp.underWay_eq hfits.hasBound hnow
    · rw [hcalls]
      have hle := hp.started_le_counted hw (huntil ▸ hnow)
      have hmore : endedBy p.counted now ≤ endedBy e.counted now := hcounted.sublist.countP_le
      omega

/-- Every race keeps to the order of its candidates and to the number of its workers. -/
theorem Run.disciplined (hr : Run probe (begin params candidates begunAt cancelled) ms e) :
    e.Disciplined probe params candidates begunAt cancelled ms := by
  have h := hr.sound (begin_sound probe params candidates begunAt cancelled)
  obtain ⟨givenUp, hperm, hstaff, _⟩ := h.account
  have hlen := hperm.length_eq
  simp only [List.length_append] at hlen
  refine ⟨⟨h.slots, h.candidates_calls, h.covers.length_le⟩, ⟨h.inOrder, h.begun⟩,
    ⟨h.genuine, fun other hother => hr.congr hother⟩, by omega,
    ⟨h.nodup_counted, h.subset_calls.1⟩, ⟨?_, results_progressOf _ _, fun p hp => ⟨?_, ?_⟩⟩,
    by omega, fun hfits => hr.steady hfits⟩
  · exact (numbers_progressOf _ _).trans (by rw [length_progressOf])
  · exact (total_of_mem_progressOf hp).trans h.total_eq
  · rw [total_of_mem_progressOf hp, h.total_eq]
    exact Nat.le_trans (tested_of_mem_progress hp) h.length_counted_le

end

/-- Three candidates and two workers: when the first test ends, the third one is started. -/
theorem three_disciplined :
    let probe : Probe := fun a _ _ =>
      if a.host = .name "one" then ⟨some (millis 10), .failure "refused"⟩
      else ⟨none, .failure "silent"⟩
    let params : Params := { Params.default with concurrency := 2 }
    let candidates : List Candidate :=
      ["one", "two", "three"].map fun name => ⟨⟨.name name, 53⟩, .builtin⟩
    let ms : List Move := [.take, .take, .pass (millis 10), .send 0, .take, .count false,
      .pass (millis 20)]
    ∃ e, Run probe (begin params candidates 0 false) ms e ∧
      e.Disciplined probe params candidates 0 false ms ∧ params.Fits 0 ∧
      e.calls.map (·.started) = [0, 0, millis 10] ∧ e.testing.length = 2 := by
  intro probe params candidates ms
  obtain ⟨e, hr, hfound⟩ := exists_run_of_play probe
    (begin params candidates 0 false) ms
    (fun e => e.calls.map (·.started) = [0, 0, millis 10] ∧ e.testing.length = 2)
    (by decide +kernel)
  exact ⟨e, hr, Run.disciplined hr, by decide +kernel, of_decide_eq_true hfound⟩

/-- In the course of an instant workers can be ahead of the supervisor. Of two tests that end at one
instant the first is a success, and each worker takes another candidate before it is counted: four
tests were started when one result was counted. And at its first instant a race can be over before
any worker has taken a candidate. -/
theorem ahead_of_the_supervisor :
    let candidate (name : String) : Candidate := ⟨⟨.name name, 53⟩, .builtin⟩
    let probe : Probe := fun a _ _ =>
      if a.host = .name "a" then ⟨some (millis 10), .success (millis 10)⟩
      else ⟨some (millis 10), .failure "refused"⟩
    let params : Params := { Params.default with concurrency := 2 }
    let hurried : Params := { params with sessionTimeout := 0 }
    let candidates := ["a", "b", "c", "d"].map candidate
    (∃ e, Run probe (begin params candidates 0 false) [.take, .take, .pass (millis 10), .send 0,
        .take, .send 0, .take, .count false] e ∧
      e.report? = some ⟨.found (candidate "a") (millis 10), 1, 4, millis 10⟩ ∧
      e.calls.length = 4 ∧ 1 + params.workers candidates.length < e.calls.length) ∧
    ∃ e, Run probe (begin hurried candidates 0 false) [.close] e ∧
      (begin hurried candidates 0 false).report? = none ∧
      e.report? = some ⟨.timedOut, 0, 4, 0⟩ ∧ e.calls = [] := by
  intro candidate probe params hurried candidates
  refine ⟨?_, ?_⟩
  · obtain ⟨e, hr, hfound⟩ := exists_run_of_play probe
      (begin params candidates 0 false)
      [.take, .take, .pass (millis 10), .send 0, .take, .send 0, .take, .count false]
      (fun e =>
        e.report? = some ⟨.found (candidate "a") (millis 10), 1, 4, millis 10⟩ ∧
          e.calls.length = 4 ∧ 1 + params.workers candidates.length < e.calls.length)
      (by decide +kernel)
    exact ⟨e, hr, of_decide_eq_true hfound⟩
  · obtain ⟨e, hr, hfound⟩ := exists_run_of_play probe
      (begin hurried candidates 0 false) [.close]
      (fun e => (begin hurried candidates 0 false).report? = none ∧
        e.report? = some ⟨.timedOut, 0, 4, 0⟩ ∧ e.calls = []) (by decide +kernel)
    exact ⟨e, hr, of_decide_eq_true hfound⟩

end Engine
end ResolverRace
