import ResolverRace.Proofs.Race.Course
import ResolverRace.Proofs.Race.Moves

/-!
# The runner makes one of the runs

`Race.runUnder` goes from result to result. Each time it does what workers and supervisor can do one
by one: time passes to the end of the test that ends first, its result is handed in, the worker
takes the next candidate or leaves, and the result is counted.

* `takeFirst_eq_eraseIdx` — the test that ends first has a place among those under way.
* `Race.toEngine` — a race between two results; `run_start`: the first one.
* `run_handedIn`, `run_refilled`, `run_counted` — up to the next result.
* `Counts.run` — all results that are counted.
* `runUnder_run` — what the runner reports is reported at the end of a run.
-/

namespace ResolverRace

theorem takeFirst_eq_eraseIdx {fs rest : List Flight} {f : Flight}
    (h : takeFirst fs = some (f, rest)) : ∃ i, fs[i]? = some f ∧ rest = fs.eraseIdx i := by
  induction fs generalizing f rest with
  | nil => simp [takeFirst] at h
  | cons g gs ih =>
    simp only [takeFirst] at h
    split at h
    · cases h
      exact ⟨0, rfl, rfl⟩
    · rename_i g' rest' hs
      split at h
      · cases h
        exact ⟨0, rfl, rfl⟩
      · cases h
        obtain ⟨i, hi, rfl⟩ := ih hs
        exact ⟨i + 1, hi, rfl⟩

namespace Engine

variable {probe : Probe} {e : Engine}

/-- Time passes up to an instant before which nobody has anything to do. -/
theorem run_until (probe : Probe) {now : Duration} (hle : e.clock ≤ now)
    (hsleeps : e.clock < now → e.SleepsUntil now) :
    ∃ ms, Run probe e ms { e with clock := now } := by
  rcases Nat.lt_or_ge e.clock now with hlt | hge
  · exact ⟨_, .single (move_iff.2 (.pass hlt (hsleeps hlt)))⟩
  · obtain rfl : now = e.clock := Nat.le_antisymm hge hle
    exact ⟨[], .nil⟩

/-- Free workers take candidates. -/
theorem run_takes (probe : Probe) (hbound : e.params.HasBound) (hgo : ¬e.IsStopped) (n : Nat)
    (hfree : e.free = n) (hn : n ≤ e.queue.length) :
    Run probe e (List.replicate n .take) { e with
      queue := e.queue.drop n, free := 0,
      testing := e.testing ++
        Race.launchAll probe e.params e.clock e.calls.length (e.queue.take n),
      calls := e.calls ++
        Race.launchAll probe e.params e.clock e.calls.length (e.queue.take n) } := by
  induction n generalizing e with
  | zero =>
    have hsame : e = { e with free := 0 } := by rw [← hfree]
    simpa [Race.launchAll, ← hsame] using (Run.nil : Run probe e [] e)
  | succ n ih =>
    obtain ⟨c, queue, hqueue⟩ := List.exists_cons_of_length_pos (Nat.lt_of_lt_of_le n.succ_pos hn)
    have htake : Acts probe e .take _ := .take hfree hqueue hgo hbound
    have hlen : n ≤ queue.length := by
      rw [hqueue] at hn
      exact Nat.le_of_succ_le_succ hn
    have hrest := ih (e := { e with
      queue := queue, free := n, testing := e.testing ++ [e.next probe c],
      calls := e.calls ++ [e.next probe c] }) hbound hgo rfl hlen
    have hall := (Run.single (move_iff.2 htake)).trans hrest
    simpa [hqueue, Race.launchAll, next, List.replicate_succ] using hall

/-- Workers that break down leave with the candidates that they have taken. -/
theorem run_breaksDown (probe : Probe) (hbound : ¬e.params.HasBound) (hgo : ¬e.IsStopped) (n : Nat)
    (hfree : e.free = n) (hn : n ≤ e.queue.length) :
    Run probe e (List.replicate n .take) { e with queue := e.queue.drop n, free := 0 } := by
  induction n generalizing e with
  | zero =>
    have hsame : e = { e with free := 0 } := by rw [← hfree]
    simpa [← hsame] using (Run.nil : Run probe e [] e)
  | succ n ih =>
    obtain ⟨c, queue, hqueue⟩ := List.exists_cons_of_length_pos (Nat.lt_of_lt_of_le n.succ_pos hn)
    have htake : Acts probe e .take _ := .breakDown hfree hqueue hgo hbound
    have hlen : n ≤ queue.length := by
      rw [hqueue] at hn
      exact Nat.le_of_succ_le_succ hn
    have hrest := ih (e := { e with queue := queue, free := n }) hbound hgo rfl hlen
    have hall := (Run.single (move_iff.2 htake)).trans hrest
    simpa [hqueue, List.replicate_succ] using hall

end Engine

namespace Race

open Engine (Run)

/-- A race between two results, with the tests that it has started: all its workers are at work. -/
def toEngine (r : Race) (calls : List Flight) : Engine :=
  { params := r.params, total := r.total, queue := r.waiting, free := 0, testing := r.flights,
    calls := calls, sent := [], counted := r.counted, supervisor := .waiting, cancelled := false,
    clock := r.clock }

section

variable {probe : Probe} {params : Params} {candidates : List Candidate} {r : Race}
  {calls : List Flight} {f : Flight} {rest : List Flight} {begunAt : Duration}

/-! ## From result to result -/

/-- At its first instant every worker takes a candidate. -/
theorem run_start (probe : Probe) (hne : candidates ≠ []) (hdeadline : params.HasDeadline begunAt)
    (hbound : params.HasBound) :
    ∃ ms calls, Run probe (.begin params candidates begunAt false) ms
        ((start probe params candidates).toEngine calls) ∧
      calls.Perm (start probe params candidates).dispatched := by
  refine ⟨List.replicate (params.workers candidates.length) .take,
    launchAll probe params 0 0 (candidates.take (params.workers candidates.length)), ?_, ?_⟩
  · have hbegin := Engine.begin_eq hne hdeadline
    have htakes := Engine.run_takes (e := Engine.begin params candidates begunAt false) probe
      (by rw [hbegin]; exact hbound) (by rw [hbegin]; exact Engine.not_isStopped rfl rfl)
      (params.workers candidates.length) (by rw [hbegin]) (by rw [hbegin]; exact params.workers_le _)
    simpa [hbegin, Engine.untouched, start, dispatch_eq, toEngine] using htakes
  · simp [start, dispatch_eq, dispatched]

/-- The race with the result `f` handed in, whose worker is free. -/
def handedIn (r : Race) (calls : List Flight) (f : Flight) (rest : List Flight) : Engine :=
  { r.toEngine calls with clock := f.ends, testing := rest, sent := [f], free := 1 }

/-- Time passes to the end of the test that ends first, and its result is handed in. -/
theorem run_handedIn (calls : List Flight) (h : r.Sound probe params candidates)
    (ht : takeFirst r.flights = some (f, rest)) (hd : f.ends < r.params.sessionTimeout) :
    ∃ ms, Run probe (r.toEngine calls) ms (r.handedIn calls f rest) := by
  have hsleeps : (r.toEngine calls).SleepsUntil f.ends :=
    ⟨rfl, takeFirst_le ht, fun _ => ⟨rfl, Nat.le_of_lt hd, rfl, ne_nil_of_takeFirst ht⟩⟩
  obtain ⟨ms, hpass⟩ := Engine.run_until probe (e := r.toEngine calls) (h.clock_le ht)
    fun _ => hsleeps
  obtain ⟨i, hi, rfl⟩ := takeFirst_eq_eraseIdx ht
  exact ⟨_, .snoc hpass (Engine.move_iff.2 (.send hi (Nat.le_refl _) rfl))⟩

/-- The race once the result `f` is counted, with the test of the next candidate. -/
theorem Sound.refill_eq (h : r.Sound probe params candidates) (f : Flight) (rest : List Flight) :
    (r.count f rest).refill probe =
      { r with
        flights := rest ++ launchAll probe params f.ends r.dispatched.length (r.waiting.take 1)
        waiting := r.waiting.drop 1
        counted := r.counted ++ [f]
        clock := f.ends } := by
  rw [count_refill_eq, h.next_slot, h.params_eq]

/-- The race with the result `f` handed in, whose worker has taken the next candidate or left. -/
def refilled (probe : Probe) (r : Race) (calls : List Flight) (f : Flight) (rest : List Flight) :
    Engine :=
  { ((r.count f rest).refill probe).toEngine calls with sent := [f], counted := r.counted }

theorem run_refilled (h : r.Sound probe params candidates) (hbound : params.HasBound)
    (hcalls : calls.Perm r.dispatched) (ht : takeFirst r.flights = some (f, rest)) :
    ∃ ms calls', Run probe (r.handedIn calls f rest) ms (r.refilled probe calls' f rest) ∧
      calls'.Perm ((r.count f rest).refill probe).dispatched := by
  have hbound' : (r.handedIn calls f rest).params.HasBound := by
    show r.params.HasBound
    rwa [h.params_eq]
  have hlen : calls.length = r.dispatched.length := hcalls.length_eq
  have hperm := (hcalls.append_right _).trans (h.dispatched_refill ht).symm
  cases hwaiting : r.waiting with
  | nil =>
    have hleave : Engine.Acts probe (r.handedIn calls f rest) .leave
        { r.handedIn calls f rest with free := 0 } := .leave rfl (.inr hwaiting)
    refine ⟨[.leave], _, .single (Engine.move_iff.2 ?_), hperm⟩
    simpa [h.refill_eq, hwaiting, launchAll, toEngine, handedIn, refilled] using hleave
  | cons c waiting =>
    have htake : Engine.Acts probe (r.handedIn calls f rest) .take _ :=
      .take rfl hwaiting (Engine.not_isStopped rfl rfl) hbound'
    refine ⟨[.take], _, .single (Engine.move_iff.2 ?_), hperm⟩
    simpa [h.refill_eq, hwaiting, launchAll, toEngine, handedIn, refilled, Engine.next, hlen,
      h.params_eq] using htake

/-- The result is counted, and with `cancels` the race is cancelled while it is reported. -/
theorem run_counted (h : r.Sound probe params candidates) (hbound : params.HasBound)
    (hcalls : calls.Perm r.dispatched) (ht : takeFirst r.flights = some (f, rest))
    (hd : f.ends < r.params.sessionTimeout) (hf : f.response.isSuccess = false) (cancels : Bool) :
    ∃ ms calls', Run probe (r.toEngine calls) ms
        { ((r.count f rest).refill probe).toEngine calls' with cancelled := cancels } ∧
      calls'.Perm ((r.count f rest).refill probe).dispatched := by
  obtain ⟨ms₁, hhanded⟩ := run_handedIn calls h ht hd
  obtain ⟨ms₂, calls', hrefilled, hcalls'⟩ := run_refilled h hbound hcalls ht
  have hclock : (r.refilled probe calls' f rest).clock <
      (r.refilled probe calls' f rest).params.sessionTimeout := by
    simpa [refilled, h.refill_eq, toEngine] using hd
  have hcount : (r.refilled probe calls' f rest).Acts probe (.count cancels)
      ((r.refilled probe calls' f rest).counting f [] cancels) := .fail rfl rfl rfl hclock hf
  have hsame : (r.refilled probe calls' f rest).counting f [] cancels =
      { ((r.count f rest).refill probe).toEngine calls' with cancelled := cancels } := by
    simp [Engine.counting, refilled, h.refill_eq, toEngine]
  have hall := Run.snoc (hhanded.trans hrefilled) (Engine.move_iff.2 hcount)
  rw [hsame] at hall
  exact ⟨_, calls', hall, hcalls'⟩

/-- All results that the runner counts, and where the clock stands then. -/
theorem Counts.run {limit : Option Duration} {stopAfter : Option Nat}
    (hcounts : Counts probe limit stopAfter (start probe params candidates) r)
    (hne : candidates ≠ []) (hdeadline : params.HasDeadline begunAt) (hbound : params.HasBound) :
    r.clock ≤ params.sessionTimeout ∧ (∀ t, limit = some t → r.clock ≤ t) ∧
    ∃ ms calls, Run probe (.begin params candidates begunAt false) ms (r.toEngine calls) ∧
      calls.Perm r.dispatched := by
  have hstart : (start probe params candidates).clock = 0 := rfl
  induction hcounts with
  | refl =>
    rw [hstart]
    exact ⟨Nat.zero_le _, fun _ _ => Nat.zero_le _, run_start probe hne hdeadline hbound⟩
  | @next r r' hcounts hl hs _ ih =>
    obtain ⟨_, _, ms, calls, hrun, hcalls⟩ := ih
    have hsound := hcounts.sound start_sound
    obtain ⟨f, rest, ht, hd, hf, rfl⟩ := step_counted hs
    obtain ⟨ms', calls', hrun', hcalls'⟩ := run_counted hsound hbound hcalls ht hd hf false
    have hclock : ((r.count f rest).refill probe).clock = f.ends := by rw [hsound.refill_eq]
    rw [hclock]
    refine ⟨Nat.le_of_lt (hsound.params_eq ▸ hd), fun t ht' => ?_, _, calls', hrun.trans hrun',
      hcalls'⟩
    rw [ht', due_eq ht, Nat.min_eq_right (Nat.le_of_lt hd)] at hl
    exact Nat.le_of_lt (Nat.lt_of_not_le (by simpa using hl))

/-! ## The end -/

/-- The engine has come to the end that the runner tells of. -/
structure Decided.Reaches (decided : Decided) (e : Engine) : Prop where
  report : e.report? = some decided.report
  counted : e.counted = decided.race.counted
  /-- Nothing else was started. -/
  calls : e.calls.Perm decided.race.dispatched

theorem reaches_decided {e : Engine} {outcome : Outcome} {elapsed : Duration}
    (hd : e.supervisor = .decided outcome elapsed) (hcounted : e.counted = r.counted)
    (htotal : e.total = r.total) (hcalls : e.calls.Perm r.dispatched) :
    (r.conclude outcome elapsed).Reaches e := by
  refine ⟨?_, hcounted, hcalls⟩
  rw [Engine.report?, hd]
  show some (Report.mk outcome e.counted.length e.total elapsed) = _
  rw [hcounted, htotal]
  rfl

/-- The race is cancelled at an instant before its next result. -/
theorem run_limit {t : Duration} (hclock : r.clock ≤ t) (hdue : t ≤ r.due)
    (hcalls : calls.Perm r.dispatched) :
    ∃ ms e, Run probe (r.toEngine calls) ms e ∧ (r.conclude .cancelled t).Reaches e := by
  have hsleeps : r.clock < t → (r.toEngine calls).SleepsUntil t := by
    intro hlt
    cases ht : takeFirst r.flights with
    | none =>
      simp only [due, ht] at hdue
      exact absurd hdue (Nat.not_le.2 hlt)
    | some p =>
      obtain ⟨f, rest⟩ := p
      rw [due_eq ht, Nat.le_min] at hdue
      exact ⟨rfl, fun g hg => Nat.le_trans hdue.2 (takeFirst_le ht g hg),
        fun _ => ⟨rfl, hdue.1, rfl, ne_nil_of_takeFirst ht⟩⟩
  obtain ⟨ms, hpass⟩ := Engine.run_until probe (e := r.toEngine calls) hclock hsleeps
  have hcancel := Run.snoc hpass (Engine.move_iff.2 (.cancel (Engine.not_isStopped rfl rfl)))
  have hclose := Run.snoc hcancel (Engine.move_iff.2 (.decide rfl (.cancelled rfl)))
  exact ⟨_, _, hclose, reaches_decided rfl rfl rfl hcalls⟩

/-- The race is decided by its next step. -/
theorem run_ended {r' : Race} {outcome : Outcome} {elapsed : Duration}
    (h : r.Sound probe params candidates) (hne : candidates ≠ [])
    (hclock : r.clock ≤ params.sessionTimeout) (hcalls : calls.Perm r.dispatched)
    (hs : r.step probe = .ended r' outcome elapsed) :
    ∃ ms e, Run probe (r.toEngine calls) ms e ∧ (r'.conclude outcome elapsed).Reaches e := by
  rw [← h.params_eq] at hclock
  cases step_ended hs with
  | exhausted hnil =>
    have hall : r.counted ≠ [] := by
      intro hnone
      have htested := h.flights_eq_nil hnil
      rw [tested, hnone] at htested
      exact hne (List.length_eq_zero_iff.1 htested.symm)
    have hbefore : r.clock < r.params.sessionTimeout := h.params_eq ▸ h.inTime hall
    have hclose : (r.toEngine calls).Decides .close ((r.toEngine calls).conclude .exhausted)
        .exhausted := .exhausted rfl hbefore ⟨rfl, hnil, rfl⟩
    exact ⟨_, _, .single (hclose.move rfl), reaches_decided rfl rfl rfl hcalls⟩
  | @timedOut f rest ht hd =>
    have hsleeps : (r.toEngine calls).SleepsUntil r.params.sessionTimeout :=
      ⟨rfl, fun g hg => Nat.le_trans hd (takeFirst_le ht g hg),
        fun _ => ⟨rfl, Nat.le_refl _, rfl, ne_nil_of_takeFirst ht⟩⟩
    obtain ⟨ms, hpass⟩ := Engine.run_until probe (e := r.toEngine calls) hclock fun _ => hsleeps
    have hclose := Run.snoc hpass (Engine.move_iff.2 (.decide rfl (.timedOut rfl (Nat.le_refl _))))
    exact ⟨_, _, hclose, reaches_decided rfl rfl rfl hcalls⟩
  | @found f rest latency ht hd hf =>
    obtain ⟨ms, hhanded⟩ := run_handedIn calls h ht hd
    have hcount : (r.handedIn calls f rest).Decides (.count false)
        (((r.handedIn calls f rest).counting f [] false).conclude (.found f.candidate latency))
        (.found f.candidate latency) := .found rfl rfl hd hf
    have hperm : calls.Perm (r.count f rest).dispatched :=
      hcalls.trans (dispatched_count ht).symm
    exact ⟨_, _, .snoc hhanded (hcount.move rfl), reaches_decided rfl rfl rfl hperm⟩

/-- The race is cancelled while a result is reported. -/
theorem run_cancelled {r' : Race} (h : r.Sound probe params candidates) (hbound : params.HasBound)
    (hcalls : calls.Perm r.dispatched) (hs : r.step probe = .counted r') :
    ∃ ms e, Run probe (r.toEngine calls) ms e ∧ (r'.conclude .cancelled r'.clock).Reaches e := by
  obtain ⟨f, rest, ht, hd, hf, rfl⟩ := step_counted hs
  obtain ⟨ms, calls', hrun, hcalls'⟩ := run_counted h hbound hcalls ht hd hf true
  have hclose := Run.snoc hrun (Engine.move_iff.2 (.decide rfl (.cancelled rfl)))
  exact ⟨_, _, hclose, reaches_decided rfl rfl rfl hcalls'⟩

/-- A race whose workers break down is over at its first instant. -/
theorem run_broken (probe : Probe) (schedule : Schedule) (hne : candidates ≠ [])
    (hdeadline : params.HasDeadline begunAt) (hbound : ¬params.HasBound) :
    ∃ ms e, Run probe (.begin params candidates begunAt false) ms e ∧
      ((idle params candidates).conclude (brokenOutcome params schedule) 0).Reaches e := by
  rw [Engine.begin_eq hne hdeadline]
  have htakes := Engine.run_breaksDown probe (e := { Engine.untouched params candidates .waiting false
    with free := params.workers candidates.length }) hbound (Engine.not_isStopped rfl rfl)
    (params.workers candidates.length) rfl (params.workers_le _)
  have hreaches {outcome : Outcome} {e : Engine} (hd : e.supervisor = .decided outcome 0)
      (hcounted : e.counted = []) (htotal : e.total = candidates.length) (hcalls : e.calls = []) :
      ((idle params candidates).conclude outcome 0).Reaches e :=
    reaches_decided hd hcounted htotal (by rw [hcalls]; exact .refl _)
  rw [brokenOutcome]
  split
  · have hcancel := Run.snoc htakes (Engine.move_iff.2 (.cancel (Engine.not_isStopped rfl rfl)))
    have hclose := Run.snoc hcancel (Engine.move_iff.2 (.decide rfl (.cancelled rfl)))
    exact ⟨_, _, hclose, hreaches rfl rfl rfl rfl⟩
  · rw [Params.breakdown]
    split
    · rename_i hzero
      have hclose := Run.snoc htakes
        (Engine.move_iff.2 (.decide rfl (.timedOut rfl (Nat.le_of_eq hzero))))
      exact ⟨_, _, hclose, hreaches rfl rfl rfl rfl⟩
    · rename_i hsome
      have hclose := Run.snoc htakes (Engine.move_iff.2 (.decide rfl
        (.exhausted rfl (Nat.pos_of_ne_zero hsome) ⟨rfl, rfl, rfl⟩)))
      exact ⟨_, _, hclose, hreaches rfl rfl rfl rfl⟩

/-- What the runner tells of a race that has a deadline is what one of the runs of the race comes
to. -/
theorem runUnder_run (probe : Probe) (params : Params) (candidates : List Candidate)
    (schedule : Schedule) (hdeadline : params.HasDeadline begunAt) :
    ∃ ms e, Run probe (.begin params candidates begunAt schedule.before) ms e ∧
      (runUnder probe params candidates schedule).Reaches e := by
  by_cases hempty : candidates = []
  · subst hempty
    refine ⟨[], _, .nil, ?_⟩
    exact reaches_decided rfl rfl rfl (.refl _)
  · have hsome : ¬candidates.isEmpty = true := fun h => hempty (List.isEmpty_iff.1 h)
    cases hbefore : schedule.before with
    | true =>
      refine ⟨[], _, .nil, ?_⟩
      rw [runUnder, if_neg hsome, if_pos hbefore, Engine.begin, if_neg hempty]
      exact reaches_decided rfl rfl rfl (.refl _)
    | false =>
      by_cases hbound : params.HasBound
      · obtain ⟨r, course, hcounts, hstops, hrun⟩ := runUnder_stops probe hempty hbefore hbound
        obtain ⟨hclock, hlimit, ms, calls, hfirst, hcalls⟩ := hcounts.run hempty hdeadline hbound
        have hsound := hcounts.sound start_sound
        obtain ⟨ms', e, hlast, hreaches⟩ : ∃ ms e, Run probe (r.toEngine calls) ms e ∧
            (Decided.ofCourse schedule.instant course).Reaches e := by
          cases hstops with
          | limit hl =>
            obtain ⟨t, ht, hdue⟩ := (Option.any_eq_true _ _).1 hl
            rw [Decided.ofCourse, ht]
            exact run_limit (hlimit t ht) (of_decide_eq_true hdue) hcalls
          | ended _ hs => exact run_ended hsound hempty hclock hcalls hs
          | cancelled _ hs => exact run_cancelled hsound hbound hcalls hs
        exact ⟨_, e, hfirst.trans hlast, hrun ▸ hreaches⟩
      · rw [runUnder_broken probe hempty hbefore hbound]
        exact run_broken probe schedule hempty hdeadline hbound

end

end Race
end ResolverRace
