import ResolverRace.Probe.Script
import ResolverRace.Proofs.Session.Calls

/-!
# The protocol of a session

`Session.Obeys` is what callers and handlers can rely on in every state of a session, however
callers, tasks, handlers and time take turns: whether a race can be started, cancelled or
acknowledged is told by the phase alone, every race that was started and has a deadline tells its
own handler one trace with one end, and a race with candidates that is cancelled before it is
decided counts no further result and ends cancelled. A race without candidates ends as such even
then, since that is looked at first. A race without a deadline can break down; then nothing more is
told of it, and the session stays in the racing phase.

* `Task.Sound.tells` — the trace of a race so far, and the whole one.
* `protocol` — every state reached by steps obeys the protocol, every state reached by calls is
  reached by steps, and after a wait everything has been told and handled.
* `empty_race_and_endless_race` — a race that is not cancelled and one that does not end.
-/

namespace ResolverRace

namespace Race

theorem responses_progress (r : Race) :
    r.progress.map (·.response) = r.counted.map (·.response) := by
  have hresponses := congrArg (List.map (·.2)) (results_progressOf r.total r.counted)
  rwa [List.map_map, List.map_map] at hresponses

end Race

/-- Results as they are told: numbered from one, of a constant total, and none but the last one a
success. -/
structure Progress.Told (total : Nat) (ps : List Progress) : Prop where
  numbered : ps.map (·.tested) = List.range' 1 ps.length
  total_eq : ∀ p ∈ ps, p.total = total
  failed : ∀ p ∈ ps.dropLast, p.response.isSuccess = false

/-- The whole trace of a race among `total` candidates that was started in the phase `old`. -/
structure Report.Traced (old : Phase) (total : Nat) (report : Report) (ps : List Progress)
    (events : List Event) : Prop where
  told : Progress.Told total ps
  found : (∃ p ∈ ps, p.response.isSuccess = true) ↔ report.outcome.isFound = true
  events_eq : events =
    [.changed old .racing] ++ ps.map .progress ++
      [.changed .racing (.ofOutcome report.outcome),
        .finished report.outcome ps.length report.elapsed]
  /-- The end is told once. -/
  once : events.countP Event.isFinished = 1

namespace Task

/-- What a task tells of a race among `total` candidates that was started in the phase `old`. -/
structure Tells (old : Phase) (total : Nat) (t : Task) : Prop where
  total_eq : t.race.total = total
  /-- What was told so far, whether or not it was handled. -/
  started : ∃ ps, Progress.Told total ps ∧
    t.told = [.changed old .racing] ++ ps.map .progress ++ t.duty.sent
  /-- What was told in all. -/
  ended : ∀ report, t.duty = .over report → ∃ ps, report.Traced old total ps t.told
  /-- A race that has broken down had no deadline, and has told that it began. -/
  broken : t.duty = .broken → ¬t.HasDeadline ∧ t.told = [.changed old .racing]

section

variable {probe : Probe} {t : Task}

theorem Sound.failed (h : t.Sound probe) :
    ∀ f ∈ t.race.counted.dropLast, f.response.isSuccess = false := by
  cases hd : t.duty.report? with
  | some report => exact (h.decided report hd).failed
  | none =>
    cases hduty : t.duty with
    | race =>
      obtain ⟨params, candidates, hsound⟩ := h.undecided hduty
      exact fun f hf => hsound.failed f ((List.dropLast_prefix _).subset hf)
    | broken =>
      rw [h.unbegun (h.broken hduty)]
      exact fun f hf => absurd hf List.not_mem_nil
    | _ => rw [hduty] at hd; cases hd

theorem Sound.progress_told (h : t.Sound probe) : Progress.Told t.race.total t.race.progress := by
  refine ⟨numbers_progressOf _ _, fun p hp => total_of_mem_progressOf hp, ?_⟩
  intro p hp
  have hmem : p.response ∈ (t.race.progress.map (·.response)).dropLast := by
    rw [← List.map_dropLast]
    exact List.mem_map_of_mem hp
  rw [t.race.responses_progress, ← List.map_dropLast] at hmem
  obtain ⟨f, hf, hresponse⟩ := List.mem_map.1 hmem
  rw [← hresponse]
  exact h.failed f hf

theorem found_progress_iff (r : Race) :
    (∃ p ∈ r.progress, p.response.isSuccess = true) ↔
      ∃ f ∈ r.counted, f.response.isSuccess = true := by
  have hmap (response : Response) : (∃ p ∈ r.progress, p.response = response) ↔
      ∃ f ∈ r.counted, f.response = response := by
    rw [← List.mem_map, ← List.mem_map, r.responses_progress]
  constructor
  · rintro ⟨p, hp, hs⟩
    obtain ⟨f, hf, hr⟩ := (hmap p.response).1 ⟨p, hp, rfl⟩
    exact ⟨f, hf, by rw [hr]; exact hs⟩
  · rintro ⟨f, hf, hs⟩
    obtain ⟨p, hp, hr⟩ := (hmap f.response).2 ⟨f, hf, rfl⟩
    exact ⟨p, hp, by rw [hr]; exact hs⟩

/-- A task tells one trace. -/
theorem Sound.tells (h : t.Sound probe) : t.Tells t.old t.race.total := by
  refine ⟨rfl, ⟨t.race.progress, h.progress_told, ?_⟩, ?_, fun hbroken => ⟨h.broken hbroken, ?_⟩⟩
  · rw [h.told_eq]
    simp
  · intro report hover
    have hfits : report.Fits t.race := h.decided report (by rw [hover]; rfl)
    have htold : t.told = [.changed t.old .racing] ++ t.race.progress.map .progress ++
        closing report := by
      rw [h.told_eq, hover]
      simp [Duty.sent]
    refine ⟨t.race.progress, h.progress_told, ?_, ?_, ?_⟩
    · rw [found_progress_iff]
      exact hfits.found
    · rw [htold, Race.length_progress, ← hfits.tested]
      rfl
    · have hnone : (t.race.progress.map Event.progress).countP Event.isFinished = 0 := by
        rw [List.countP_map, List.countP_eq_zero]
        intro p _
        simp [Event.isFinished]
      rw [htold, List.countP_append, List.countP_append, hnone]
      rfl
  · rw [h.told_eq, hbroken, Race.progress, h.unbegun (h.broken hbroken)]
    rfl

end

end Task

namespace Session

/-- What a session can be relied on for. -/
structure Obeys (probe : Probe) (s : Session) : Prop where
  token_iff : s.token.isSome = true ↔ s.phase = .racing
  refused_iff : ∀ params candidates,
    s.start probe params candidates = .error .alreadyRacing ↔ s.phase = .racing
  /-- A start that is refused changes nothing. -/
  refused : ∀ params candidates, s.phase = .racing →
    s.perform probe (.start params candidates) = s
  /-- A start that succeeds tells its own handler one trace, whatever happens later. -/
  started : ∀ params candidates s', s.start probe params candidates = .ok s' →
    s'.phase = .racing ∧ s'.token = some s.tasks.length ∧ ∀ s'', Later probe s' s'' →
      ∃ t, s''.tasks[s.tasks.length]? = some t ∧ t.Tells s.phase candidates.length ∧
        (t.HasDeadline ↔ params.HasDeadline s.now)
  /-- Nothing is told after the end. -/
  silent : ∀ (n : Nat) (t : Task) (report : Report), s.tasks[n]? = some t → t.duty = .over report →
    ∀ s', Later probe s s' →
      ∃ t' : Task, s'.tasks[n]? = some t' ∧ t'.duty = .over report ∧ t'.told = t.told
  /-- Once its race has broken down a session stays in the racing phase. -/
  broken : ∀ (n : Nat) (t : Task), s.tasks[n]? = some t → t.duty = .broken →
    ∀ s', Later probe s s' → s'.phase = .racing ∧
      ∃ t' : Task, s'.tasks[n]? = some t' ∧ t'.duty = .broken ∧ t'.told = t.told
  cancel_iff : s.cancel.2 = true ↔ s.phase = .racing
  /-- An undecided race whose cancellation was asked for counts no further result, and ends
  cancelled if it has candidates. -/
  cancelled : s.cancel.2 = true → ∃ (n : Nat) (t : Task), s.token = some n ∧ s.tasks[n]? = some t ∧
    (t.duty = .race → ∀ s', Later probe s.cancel.1 s' →
      ∃ t', s'.tasks[n]? = some t' ∧ t'.race = t.race ∧ t'.told = t.told ++ t'.duty.sent ∧
        t'.duty ≠ .broken ∧ ∀ report, t'.duty.report? = some report →
          report.tested = t.race.tested ∧
          report.outcome = if t.race.total = 0 then .noCandidates else .cancelled)
  acknowledge_iff : s.acknowledge.2 = true ↔ s.phase.isTerminal = true
  acknowledged : s.acknowledge.2 = true → s.acknowledge.1.phase = .idle

section

variable {probe : Probe} {s : Session}

theorem Sound.started (h : s.Sound probe) {params : Params} {candidates : List Candidate}
    {s' s'' : Session} (hs : s.start probe params candidates = .ok s') (hl : Later probe s' s'') :
    ∃ t, s''.tasks[s.tasks.length]? = some t ∧ t.Tells s.phase candidates.length ∧
      (t.HasDeadline ↔ params.HasDeadline s.now) := by
  have hsound : s'.Sound probe := h.start hs
  obtain ⟨_, rfl⟩ := start_eq_ok hs
  obtain ⟨t, ht, hf⟩ := hl.follows hsound List.getElem?_concat_length
  refine ⟨t, ht, ?_, Task.hasDeadline_congr hf.params hf.startedAt⟩
  have htells := ((hl.sound hsound).tasks t (List.mem_of_getElem? ht)).tells
  rw [hf.old, hf.total] at htells
  exact htells

/-- A task that has broken down holds the session for good. -/
theorem Sound.broken (h : s.Sound probe) {n : Nat} {t : Task} (ht : s.tasks[n]? = some t)
    (hd : t.duty = .broken) {s' : Session} (hl : Later probe s s') : s'.phase = .racing ∧
      ∃ t' : Task, s'.tasks[n]? = some t' ∧ t'.duty = .broken ∧ t'.told = t.told := by
  obtain ⟨t', ht', hf⟩ := hl.follows h ht
  obtain ⟨hd', htold⟩ := hf.broken hd
  have hsound := hl.sound h
  have htoken : s'.token = some n := hsound.held n t' ht' (by rw [hd']; rfl)
  exact ⟨hsound.token_iff.1 (by rw [htoken]; rfl), t', ht', hd', htold⟩

theorem Sound.cancel_iff (h : s.Sound probe) : s.cancel.2 = true ↔ s.phase = .racing := by
  rcases cancel_cases s with ⟨n, hp, _, hc⟩ | ⟨hno, hc⟩
  · rw [hc]
    exact iff_of_true rfl hp
  · rw [hc]
    refine iff_of_false Bool.false_ne_true fun hp => ?_
    rcases hno with hno | hno
    · exact hno hp
    · have htoken := h.token_iff.2 hp
      rw [hno] at htoken
      cases htoken

/-- A cancelled race has counted its last result. -/
theorem Sound.cancelled (h : s.Sound probe) {n : Nat} {t : Task} (htoken : s.token = some n)
    (ht : s.tasks[n]? = some t) (hc : s.cancel.2 = true) (hd : t.duty = .race) {s' : Session}
    (hl : Later probe s.cancel.1 s') :
    ∃ t', s'.tasks[n]? = some t' ∧ t'.race = t.race ∧ t'.told = t.told ++ t'.duty.sent ∧
      t'.duty ≠ .broken ∧ ∀ report, t'.duty.report? = some report →
        report.tested = t.race.tested ∧
        report.outcome = if t.race.total = 0 then .noCandidates else .cancelled := by
  have ht' : s.cancel.1.tasks[n]? = some { t with cancelled := true } := by
    rcases cancel_cases s with ⟨m, _, hm, hcancel⟩ | ⟨_, hcancel⟩
    · rw [htoken] at hm
      cases hm
      rw [hcancel]
      simp [ht]
    · rw [hcancel] at hc
      cases hc
  obtain ⟨t', hin, hf⟩ := hl.follows h.cancel ht'
  obtain ⟨hrace, hnot, hreports⟩ := hf.stopped hd rfl
  have htold : t.told = .changed t.old .racing :: t.race.progress.map .progress :=
    (h.tasks t (List.mem_of_getElem? ht)).told_race hd
  have htold' := ((hl.sound h.cancel).tasks t' (List.mem_of_getElem? hin)).told_eq
  refine ⟨t', hin, hrace, ?_, hnot, ?_⟩
  · rw [htold', htold, hrace, hf.old]
    rfl
  · intro report hreport
    obtain ⟨elapsed, rfl⟩ := hreports report hreport
    exact ⟨rfl, rfl⟩

theorem Sound.obeys (h : s.Sound probe) : s.Obeys probe := by
  refine ⟨h.token_iff, fun params candidates => start_eq_error_iff probe params candidates s,
    ?_, ?_, ?_, fun n t ht hd s' hl => h.broken ht hd hl, h.cancel_iff, ?_, ?_, ?_⟩
  · intro params candidates hp
    simp [perform, (start_eq_error_iff probe params candidates s).2 hp, Except.toOption]
  · intro params candidates s' hs
    have hlater := fun s'' (hl : Later probe s' s'') => h.started hs hl
    obtain ⟨_, rfl⟩ := start_eq_ok hs
    exact ⟨rfl, rfl, hlater⟩
  · intro n t report ht hover s' hl
    obtain ⟨t', ht', hf⟩ := hl.follows h ht
    obtain ⟨hover', htold⟩ := hf.silent report hover
    exact ⟨t', ht', hover', htold⟩
  · intro hc
    have htoken := h.token_iff.2 (h.cancel_iff.1 hc)
    obtain ⟨n, hn⟩ := Option.isSome_iff_exists.1 htoken
    obtain ⟨t, ht, _⟩ := h.holder n hn
    exact ⟨n, t, hn, ht, fun hd s' hl => h.cancelled hn ht hc hd hl⟩
  · rcases acknowledge_cases s with ⟨hp, ha⟩ | ⟨hp, ha⟩
    · simp [ha, hp]
    · simp [ha, hp]
  · intro ha
    rcases acknowledge_cases s with ⟨_, hack⟩ | ⟨_, hack⟩
    · rw [hack]
    · rw [hack] at ha
      cases ha

end

/-- Every state of a session obeys the protocol, and calls lead nowhere else; after a wait every
race that has a deadline is over, and every handler has handled all that it was told. -/
theorem protocol (probe : Probe) :
    (∀ s, Later probe idle s → s.Obeys probe) ∧
    (∀ calls, Later probe idle (run probe calls)) ∧
    ∀ calls, ∀ t ∈ ((run probe calls).wait probe).1.tasks,
      (t.HasDeadline → ∃ report, t.duty = .over report) ∧ t.queue = [] ∧ t.handled = t.told := by
  refine ⟨fun s hl => (hl.sound (idle_sound probe)).obeys, fun calls => (run_later probe calls).1,
    ?_⟩
  intro calls t ht
  have hquiet := (run_later probe calls).2
  obtain ⟨hduty, hqueue⟩ := wait_rests hquiet t ht
  have hsound := (wait_later hquiet).2.sound.tasks t ht
  refine ⟨fun hdeadline => ?_, hqueue, by simp [Task.told, hqueue]⟩
  exact hduty.resolve_right fun hbroken => hsound.broken hbroken hdeadline

/-- A race of one resolver that would fail at once, cancelled before it is decided. -/
theorem protocol_after_cancel :
    let script : Script := ⟨.fail 0 "refused", []⟩
    let candidate : Candidate := ⟨⟨.name "one", 53⟩, .builtin⟩
    let s := run script.probe [.start .default [candidate]]
    s.cancel.2 = true ∧ ∀ s', Later script.probe s.cancel.1 s' →
      ∃ t : Task, s'.tasks[0]? = some t ∧ t.race.tested = 0 ∧
        ∀ report, t.duty.report? = some report → report.outcome = .cancelled := by
  intro script candidate s
  have hp := protocol script.probe
  have hobeys : s.Obeys script.probe := hp.1 s (hp.2.1 [.start .default [candidate]])
  have hracing : s.cancel.2 = true := hobeys.cancel_iff.2 (by decide)
  obtain ⟨n, t, hn, ht, hall⟩ := hobeys.cancelled hracing
  obtain rfl : 0 = n := Option.some.inj hn
  have hfirst : s.tasks[0]? =
      some (.begin script.probe .default [candidate] 0 .idle) := rfl
  rw [hfirst] at ht
  cases ht
  refine ⟨hracing, fun s' hl => ?_⟩
  obtain ⟨t', ht', hrace, _, _, hreports⟩ := hall rfl s' hl
  exact ⟨t', ht', by rw [hrace]; rfl, fun report hreport => (hreports report hreport).2⟩

/-- A race without candidates does not end cancelled, although a cancellation was granted while it
was undecided. And a race whose deadline is beyond the clock never ends: its session stays in the
racing phase, and its handler is told that it began and nothing else. -/
theorem empty_race_and_endless_race :
    let probe : Probe := Script.probe ⟨.fail 0 "refused", []⟩
    let candidate : Candidate := ⟨⟨.name "one", 53⟩, .builtin⟩
    let s := run probe [.start .default []]
    let s' := (s.cancel.1.wait probe).1
    let endless : Params := { Params.default with sessionTimeout := Duration.longest }
    let u := run probe [.start endless [candidate], .wait]
    (s.cancel.2 = true ∧ s.uncollected = none ∧ Later probe s.cancel.1 s' ∧
      s'.phase = .failed ∧ (s.cancel.1.wait probe).2.2.map (·.outcome) = some .noCandidates) ∧
    (idle.start probe endless [candidate]).toOption.isSome = true ∧ Later probe idle u ∧
      ∀ u', Later probe u u' → u'.phase = .racing ∧
        ∃ t : Task, u'.tasks[0]? = some t ∧ t.told = [.changed .idle .racing] := by
  intro probe candidate s s' endless u
  have hquiet : s.cancel.1.Quiet probe := (run_later probe [.start .default []]).2.cancel
  refine ⟨⟨by decide, by decide, (wait_later hquiet).1, by decide, by decide⟩, by decide,
    (run_later probe _).1, fun u' hl => ?_⟩
  have hsound : u.Sound probe := (run_later probe [.start endless [candidate], .wait]).2.sound
  have hany : u.tasks[0]?.any (fun t => t.duty = .broken ∧ t.told = [.changed .idle .racing]) =
      true := by decide +kernel
  obtain ⟨t, ht, hfound⟩ := (Option.any_eq_true _ _).1 hany
  obtain ⟨hd, htold⟩ := of_decide_eq_true hfound
  obtain ⟨hphase, t', ht', _, htold'⟩ := hsound.broken ht hd hl
  exact ⟨hphase, t', ht', htold'.trans htold⟩

end Session
end ResolverRace
