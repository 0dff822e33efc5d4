import ResolverRace.Proofs.Race.Invariant
import ResolverRace.Session.Interleaving

/-!
# What holds of the task of a race

`Task.Sound` ties what a task has told its handler to the state of its race. `Task.Follows` says
what a later state of a task keeps of an earlier one.

* `progress_eq_append` — the progress of a race goes on from that of an earlier state.
* `Task.Goes`, `goes_of_next` — everything that the race of a task can do.
* `Task.Sound.work`, `Task.Sound.handleOne` — the invariant is kept.
* `follows_work`, `follows_handleOne` — what one thing done leaves as it was.
-/

namespace ResolverRace

namespace Race

/-- The race has gone on: results were counted, and nobody has joined. -/
structure Extends (r r' : Race) : Prop where
  params : r'.params = r.params
  total : r'.total = r.total
  counted : r.counted <+: r'.counted

theorem Extends.refl (r : Race) : r.Extends r := ⟨rfl, rfl, List.prefix_rfl⟩

theorem Extends.trans {r s t : Race} (h₁ : r.Extends s) (h₂ : s.Extends t) : r.Extends t :=
  ⟨h₂.params.trans h₁.params, h₂.total.trans h₁.total, h₁.counted.trans h₂.counted⟩

theorem extends_counted {probe : Probe} {r r' : Race} (hs : r.step probe = .counted r') :
    r.Extends r' := by
  obtain ⟨f, rest, _, _, _, rfl⟩ := step_counted hs
  rw [count_refill_eq]
  exact ⟨rfl, rfl, List.prefix_append _ _⟩

theorem extends_ended {probe : Probe} {r r' : Race} {outcome : Outcome} {elapsed : Duration}
    (hs : r.step probe = .ended r' outcome elapsed) : r.Extends r' := by
  cases step_ended hs with
  | exhausted | timedOut => exact .refl r
  | found => exact ⟨rfl, rfl, List.prefix_append _ _⟩

/-- The progress of a race goes on from that of an earlier state. -/
theorem progress_eq_append {r r' : Race} (h : r.Extends r') :
    r'.progress = r.progress ++ r'.progress.drop r.tested := by
  obtain ⟨_, htotal, more, hcounted⟩ := h
  obtain ⟨later, hsplit⟩ : ∃ later, r'.progress = r.progress ++ later := by
    simp only [progress, progressOf, ← hcounted, htotal, List.zipIdx_append, List.map_append]
    exact ⟨_, rfl⟩
  have hdrop := congrArg (List.drop r.tested) hsplit
  rw [← length_progress, List.drop_left, length_progress] at hdrop
  rw [hdrop]
  exact hsplit

end Race

/-- A report says of a race what was counted. -/
structure Report.Fits (report : Report) (race : Race) : Prop where
  tested : report.tested = race.tested
  total : report.total = race.total
  failed : ∀ f ∈ race.counted.dropLast, f.response.isSuccess = false
  found : (∃ f ∈ race.counted, f.response.isSuccess = true) ↔ report.outcome.isFound = true

namespace Race

section

variable {probe : Probe} {params : Params} {candidates : List Candidate}

/-- An undecided race can be given up. -/
theorem Sound.fits {r : Race} (h : r.Sound probe params candidates) {outcome : Outcome}
    {elapsed : Duration} (ho : outcome.isFound = false) : (r.report outcome elapsed).Fits r := by
  refine ⟨rfl, rfl, fun f hf => h.failed f ((List.dropLast_prefix _).subset hf), ?_⟩
  constructor
  · rintro ⟨f, hf, hs⟩
    rw [h.failed f hf] at hs
    cases hs
  · intro hfound
    have hfound' : outcome.isFound = true := hfound
    rw [ho] at hfound'
    cases hfound'

theorem Sound.fits_ended {r r' : Race} (h : r.Sound probe params candidates) {outcome : Outcome}
    {elapsed : Duration} (hs : r.step probe = .ended r' outcome elapsed) :
    (r'.report outcome elapsed).Fits r' := by
  cases step_ended hs with
  | exhausted | timedOut => exact h.fits rfl
  | @found f _ _ _ _ hf =>
    refine ⟨rfl, rfl, ?_, fun _ => rfl, fun _ => ⟨f, ?_, ?_⟩⟩
    · show ∀ g ∈ (r.counted ++ [f]).dropLast, _
      rw [List.dropLast_concat]
      exact h.failed
    · exact List.mem_append_right _ (List.mem_singleton_self f)
    · rw [hf]
      rfl

end

end Race

/-- The events of the end of a race that were sent. -/
def Duty.sent : Duty → List Event
  | .tellEnd report => [Task.phaseEvent report]
  | .over report => Task.closing report
  | _ => []

namespace Task

/-- What a task has told, whether or not it was handled. -/
def told (t : Task) : List Event := t.handled ++ t.queue

/-- What a task has told is what has happened. -/
structure Sound (probe : Probe) (t : Task) : Prop where
  told_eq : t.told =
    .changed t.old .racing :: (t.race.progress.map .progress ++ t.duty.sent)
  undecided : t.duty = .race → ∃ params candidates, t.race.Sound probe params candidates
  decided : ∀ report, t.duty.report? = some report → report.Fits t.race
  /-- A race without a deadline counts nothing. -/
  unbegun : ¬t.HasDeadline → t.race.counted = []
  broken : t.duty = .broken → ¬t.HasDeadline

/-- Everything that the race of a task can do. -/
inductive Goes (probe : Probe) (age : Duration) (t : Task) : Task → Prop where
  | noCandidates : t.race.total = 0 → Goes probe age t (t.decide t.race .noCandidates 0)
  | cancelled : t.race.total ≠ 0 → t.cancelled = true →
      Goes probe age t (t.decide t.race .cancelled age)
  | breaks : t.race.total ≠ 0 → t.cancelled = false → ¬t.HasDeadline →
      Goes probe age t { t with duty := .broken }
  /-- The workers break down. -/
  | deserted : t.race.total ≠ 0 → t.cancelled = false → t.HasDeadline →
      ¬t.race.params.HasBound → Goes probe age t (t.decide t.race t.race.params.breakdown age)
  | counted {race : Race} : t.race.total ≠ 0 → t.cancelled = false → t.HasDeadline →
      t.race.params.HasBound → t.race.due ≤ age → t.race.step probe = .counted race →
      Goes probe age t (t.moveOn race)
  | ended {race : Race} {outcome : Outcome} {elapsed : Duration} : t.race.total ≠ 0 →
      t.cancelled = false → t.HasDeadline → t.race.params.HasBound → t.race.due ≤ age →
      t.race.step probe = .ended race outcome elapsed →
      Goes probe age t (t.decide race outcome elapsed)

theorem goes_of_next {probe : Probe} {age : Duration} {t t' : Task}
    (h : t.next probe age = some t') : t.Goes probe age t' := by
  simp only [next] at h
  split at h
  · rename_i h0
    cases h
    exact .noCandidates h0
  · rename_i h0
    split at h
    · rename_i hc
      cases h
      exact .cancelled h0 hc
    · rename_i hc
      have hc' : t.cancelled = false := Bool.eq_false_iff.2 hc
      split at h
      · rename_i hno
        cases h
        exact .breaks h0 hc' hno
      · rename_i hdeadline
        have hdeadline' : t.HasDeadline := Decidable.not_not.1 hdeadline
        split at h
        · rename_i hno
          cases h
          exact .deserted h0 hc' hdeadline' hno
        · rename_i hbound
          have hbound' : t.race.params.HasBound := Decidable.not_not.1 hbound
          split at h
          · cases h
          · rename_i hdue
            have hdue' := Nat.le_of_not_lt hdue
            cases hs : t.race.step probe with
            | counted race =>
              rw [hs] at h
              cases h
              exact .counted h0 hc' hdeadline' hbound' hdue' hs
            | ended race outcome elapsed =>
              rw [hs] at h
              cases h
              exact .ended h0 hc' hdeadline' hbound' hdue' hs

theorem isFound_breakdown (p : Params) : p.breakdown.isFound = false := by
  rw [Params.breakdown]
  split <;> rfl

/-! ## The invariant -/

theorem told_moveOn {t : Task} {race : Race}
    (ht : t.told = .changed t.old .racing :: t.race.progress.map .progress)
    (hr : t.race.Extends race) :
    (t.moveOn race).told = .changed t.old .racing :: race.progress.map .progress := by
  have happend : (t.moveOn race).told = t.told ++ t.news race := by
    simp [told, moveOn, send]
  rw [happend, ht, Race.progress_eq_append hr, List.map_append]
  simp only [news, List.cons_append]

section

variable {probe : Probe} {t t' : Task}

theorem Sound.told_race (h : t.Sound probe) (hd : t.duty = .race) :
    t.told = .changed t.old .racing :: t.race.progress.map .progress := by
  rw [h.told_eq, hd]
  simp [Duty.sent]

theorem hasDeadline_congr (hp : t'.race.params = t.race.params)
    (hs : t'.startedAt = t.startedAt) : t'.HasDeadline ↔ t.HasDeadline := by
  rw [HasDeadline, HasDeadline, hp, hs]

theorem Sound.decide {race : Race} {outcome : Outcome} {elapsed : Duration} (h : t.Sound probe)
    (hd : t.duty = .race) (hr : t.race.Extends race)
    (hunbegun : ¬t.HasDeadline → race.counted = [])
    (hfits : (race.report outcome elapsed).Fits race) :
    (t.decide race outcome elapsed).Sound probe := by
  have hsame : (t.decide race outcome elapsed).HasDeadline ↔ t.HasDeadline :=
    hasDeadline_congr hr.params rfl
  refine ⟨?_, (nomatch ·), ?_, fun hno => hunbegun (mt hsame.2 hno), (nomatch ·)⟩
  · show (t.moveOn race).told = _
    rw [told_moveOn (h.told_race hd) hr]
    simp [Task.decide, moveOn, send, Duty.sent]
  · intro report hreport
    cases hreport
    exact hfits

theorem Sound.moveOn {race : Race} (h : t.Sound probe) (hd : t.duty = .race)
    (hdeadline : t.HasDeadline) (hs : t.race.step probe = .counted race) :
    (t.moveOn race).Sound probe := by
  obtain ⟨params, candidates, hrace⟩ := h.undecided hd
  have hr := Race.extends_counted hs
  have hsame : (t.moveOn race).HasDeadline ↔ t.HasDeadline := hasDeadline_congr hr.params rfl
  have hduty : (t.moveOn race).duty = .race := hd
  refine ⟨?_, fun _ => ⟨params, candidates, Race.step_sound hrace hs⟩, ?_,
    fun hno => absurd (hsame.2 hdeadline) hno, ?_⟩
  · rw [told_moveOn (h.told_race hd) hr, hduty]
    simp [Task.moveOn, send, Duty.sent]
  · rw [hduty]
    exact fun _ hreport => nomatch hreport
  · rw [hduty]
    exact fun hbroken => nomatch hbroken

theorem Sound.next {age : Duration} (h : t.Sound probe) (hd : t.duty = .race)
    (hn : t.next probe age = some t') : t'.Sound probe := by
  obtain ⟨params, candidates, hrace⟩ := h.undecided hd
  cases goes_of_next hn with
  | noCandidates | cancelled => exact h.decide hd (.refl _) h.unbegun (hrace.fits rfl)
  | breaks _ _ hno =>
    refine ⟨?_, (nomatch ·), (fun _ hreport => nomatch hreport), h.unbegun, fun _ => hno⟩
    have htold := h.told_eq
    rw [hd] at htold
    exact htold
  | deserted _ _ hdeadline =>
    exact h.decide hd (.refl _) h.unbegun (hrace.fits (isFound_breakdown _))
  | counted _ _ hdeadline _ _ hs => exact h.moveOn hd hdeadline hs
  | ended _ _ hdeadline _ _ hs =>
    exact h.decide hd (Race.extends_ended hs) (fun hno => absurd hdeadline hno)
      (hrace.fits_ended hs)

/-- After the decision a task only sends the events of the end. -/
theorem Sound.goOn {report : Report} (h : t.Sound probe) (hreport : t.duty.report? = some report)
    (events : List Event) (duty : Duty) (hduty : duty.report? = some report)
    (hsent : duty.sent = t.duty.sent ++ events) :
    ({ t.send events with duty := duty } : Task).Sound probe := by
  refine ⟨?_, ?_, ?_, h.unbegun, ?_⟩
  · show t.handled ++ (t.queue ++ events) =
      .changed t.old .racing :: (t.race.progress.map .progress ++ duty.sent)
    rw [hsent, ← List.append_assoc, ← List.append_assoc, ← List.cons_append, ← h.told_eq]
    rfl
  · intro hrace
    have hrace' : duty = .race := hrace
    rw [hrace'] at hduty
    cases hduty
  · intro report' hreport'
    have hsame : duty.report? = some report' := hreport'
    rw [hduty] at hsame
    cases hsame
    exact h.decided report hreport
  · intro hbroken
    have hbroken' : duty = .broken := hbroken
    rw [hbroken'] at hduty
    cases hduty

/-- Whatever a task does, what it has told stays what has happened. -/
theorem Sound.work {age : Duration} (h : t.Sound probe) (hw : t.work probe age = some t') :
    t'.Sound probe := by
  simp only [Task.work] at hw
  split at hw
  · rename_i hd
    exact h.next hd hw
  · rename_i report hd
    cases hw
    have hgo := h.goOn (by rw [hd]; rfl) [] (.release report) rfl (by rw [hd]; rfl)
    simpa [send] using hgo
  · rename_i report hd
    cases hw
    have hgo := h.goOn (by rw [hd]; rfl) [] (.tellPhase report) rfl (by rw [hd]; rfl)
    simpa [send] using hgo
  · rename_i report hd
    cases hw
    exact h.goOn (by rw [hd]; rfl) _ _ rfl (by rw [hd]; rfl)
  · rename_i report hd
    cases hw
    exact h.goOn (by rw [hd]; rfl) _ _ rfl (by rw [hd]; rfl)
  · cases hw
  · cases hw

theorem Sound.handleOne (h : t.Sound probe) (hq : t.handleOne = some t') : t'.Sound probe := by
  simp only [Task.handleOne] at hq
  split at hq
  · cases hq
  · rename_i e rest he
    cases hq
    refine ⟨?_, h.undecided, h.decided, h.unbegun, h.broken⟩
    have htold : ({ t with queue := rest, handled := t.handled ++ [e] } : Task).told = t.told := by
      simp [told, he]
    rw [htold]
    exact h.told_eq

theorem Sound.cancel (h : t.Sound probe) : ({ t with cancelled := true } : Task).Sound probe :=
  ⟨h.told_eq, h.undecided, h.decided, h.unbegun, h.broken⟩

end

/-! ## What stays -/

/-- What a later state of a task keeps: what was told, how the race was decided, that a cancelled
race has counted its last result, and that a race has broken down. -/
structure Follows (t t' : Task) : Prop where
  old : t'.old = t.old
  startedAt : t'.startedAt = t.startedAt
  params : t'.race.params = t.race.params
  total : t'.race.total = t.race.total
  told : t.told <+: t'.told
  handled : t.handled <+: t'.handled
  cancelled : t.cancelled = true → t'.cancelled = true
  decided : ∀ report, t.duty.report? = some report →
    t'.duty.report? = some report ∧ t'.race = t.race
  silent : ∀ report, t.duty = .over report → t'.duty = .over report ∧ t'.told = t.told
  broken : t.duty = .broken → t'.duty = .broken ∧ t'.told = t.told
  stopped : t.duty = .race → t.cancelled = true → t'.race = t.race ∧ t'.duty ≠ .broken ∧
    ∀ report, t'.duty.report? = some report → ∃ elapsed, report =
      t.race.report (if t.race.total = 0 then .noCandidates else .cancelled) elapsed

/-- What leaves the race of a task, its duty and all that it has told keeps everything. -/
theorem follows_of_same {t t' : Task} (hold : t'.old = t.old) (hstart : t'.startedAt = t.startedAt)
    (hrace : t'.race = t.race) (htold : t'.told = t.told) (hhandled : t.handled <+: t'.handled)
    (hcancelled : t.cancelled = true → t'.cancelled = true) (hduty : t'.duty = t.duty) :
    t.Follows t' := by
  refine ⟨hold, hstart, by rw [hrace], by rw [hrace], ⟨[], by rw [htold, List.append_nil]⟩, hhandled,
    hcancelled, fun _ h => ⟨hduty ▸ h, hrace⟩, fun _ h => ⟨hduty ▸ h, htold⟩,
    fun h => ⟨hduty ▸ h, htold⟩, fun hd _ => ⟨hrace, ?_, fun report hreport => ?_⟩⟩
  · rw [hduty, hd]
    exact Duty.noConfusion
  · rw [hduty, hd] at hreport
    cases hreport

theorem Follows.refl (t : Task) : t.Follows t := follows_of_same rfl rfl rfl rfl List.prefix_rfl id rfl

theorem Follows.trans {t u v : Task} (h₁ : t.Follows u) (h₂ : u.Follows v) : t.Follows v := by
  refine ⟨h₂.old.trans h₁.old, h₂.startedAt.trans h₁.startedAt, h₂.params.trans h₁.params,
    h₂.total.trans h₁.total, h₁.told.trans h₂.told, h₁.handled.trans h₂.handled,
    fun h => h₂.cancelled (h₁.cancelled h), ?_, ?_, ?_, ?_⟩
  · intro report hreport
    obtain ⟨hu, hrace⟩ := h₁.decided report hreport
    obtain ⟨hv, hrace'⟩ := h₂.decided report hu
    exact ⟨hv, hrace'.trans hrace⟩
  · intro report hover
    obtain ⟨hu, htold⟩ := h₁.silent report hover
    obtain ⟨hv, htold'⟩ := h₂.silent report hu
    exact ⟨hv, htold'.trans htold⟩
  · intro hbroken
    obtain ⟨hu, htold⟩ := h₁.broken hbroken
    obtain ⟨hv, htold'⟩ := h₂.broken hu
    exact ⟨hv, htold'.trans htold⟩
  · intro hd hc
    obtain ⟨hrace, hnot, hreports⟩ := h₁.stopped hd hc
    -- In `u` the race is either still to be given up or decided already.
    cases hu : u.duty.report? with
    | none =>
      have hd' : u.duty = .race := by
        cases hduty : u.duty with
        | race => rfl
        | broken => exact absurd hduty hnot
        | _ => rw [hduty] at hu; cases hu
      obtain ⟨hrace', hnot', hreports'⟩ := h₂.stopped hd' (h₁.cancelled hc)
      rw [hrace] at hrace' hreports'
      exact ⟨hrace', hnot', hreports'⟩
    | some report =>
      obtain ⟨hv, hrace'⟩ := h₂.decided report hu
      refine ⟨hrace'.trans hrace, fun hbroken => ?_, fun report' hreport' => ?_⟩
      · rw [hbroken] at hv
        cases hv
      · rw [hv] at hreport'
        cases hreport'
        exact hreports report hu

theorem follows_cancel (t : Task) : t.Follows { t with cancelled := true } :=
  follows_of_same rfl rfl rfl rfl List.prefix_rfl (fun _ => rfl) rfl

theorem follows_handleOne {t t' : Task} (h : t.handleOne = some t') : t.Follows t' := by
  simp only [handleOne] at h
  split at h
  · cases h
  · rename_i e rest he
    cases h
    exact follows_of_same rfl rfl rfl (by simp [told, he]) (List.prefix_append _ _) id rfl

theorem told_prefix_send (t : Task) (events : List Event) : t.told <+: (t.send events).told := by
  simp only [told, send, ← List.append_assoc]
  exact List.prefix_append _ _

/-- After the decision the race and its report stay. -/
theorem follows_goOn {t : Task} {report : Report} (hreport : t.duty.report? = some report)
    (events : List Event) (duty : Duty) (hduty : duty.report? = some report)
    (hover : ∀ r, t.duty ≠ .over r) : t.Follows { t.send events with duty := duty } := by
  refine ⟨rfl, rfl, rfl, rfl, told_prefix_send t events, List.prefix_rfl, id, ?_, ?_, ?_, ?_⟩
  · intro report' hreport'
    rw [hreport] at hreport'
    cases hreport'
    exact ⟨hduty, rfl⟩
  · intro r hr
    exact absurd hr (hover r)
  · intro hbroken
    rw [hbroken] at hreport
    cases hreport
  · intro hd
    rw [hd] at hreport
    cases hreport

/-- An undecided race goes on to the state `race`. -/
theorem follows_moveOn {t : Task} (hd : t.duty = .race) {race : Race} (hrace : t.race.Extends race)
    (duty : Duty) (hstopped : t.cancelled = true → race = t.race ∧ duty ≠ .broken ∧
      ∀ report, duty.report? = some report → ∃ elapsed, report =
        t.race.report (if t.race.total = 0 then .noCandidates else .cancelled) elapsed) :
    t.Follows { t.moveOn race with duty := duty } := by
  refine ⟨rfl, rfl, hrace.params, hrace.total, told_prefix_send t _, List.prefix_rfl, id,
    fun report hreport => ?_, fun report hover => ?_, fun hbroken => ?_, fun _ hc => hstopped hc⟩
  · rw [hd] at hreport
    cases hreport
  · rw [hd] at hover
    cases hover
  · rw [hd] at hbroken
    cases hbroken

theorem moveOn_self (t : Task) : t.moveOn t.race = t := by
  simp [moveOn, send, news, ← Race.length_progress]

theorem follows_next {probe : Probe} {age : Duration} {t t' : Task} (hd : t.duty = .race)
    (h : t.next probe age = some t') : t.Follows t' := by
  have hnot {P : Prop} (hc : t.cancelled = false) (hc' : t.cancelled = true) : P := by
    rw [hc] at hc'
    cases hc'
  cases goes_of_next h with
  | noCandidates h0 =>
    refine follows_moveOn hd (.refl _) _ fun _ => ⟨rfl, Duty.noConfusion, fun report hreport => ?_⟩
    cases hreport
    exact ⟨0, by rw [if_pos h0]⟩
  | cancelled h0 =>
    refine follows_moveOn hd (.refl _) _ fun _ => ⟨rfl, Duty.noConfusion, fun report hreport => ?_⟩
    cases hreport
    exact ⟨age, by rw [if_neg h0]⟩
  | breaks _ hc =>
    have hgo := follows_moveOn hd (.refl _) .broken (hnot hc)
    rwa [moveOn_self] at hgo
  | deserted _ hc => exact follows_moveOn hd (.refl _) _ (hnot hc)
  | counted _ hc _ _ _ hs => exact follows_moveOn hd (Race.extends_counted hs) t.duty (hnot hc)
  | ended _ hc _ _ _ hs => exact follows_moveOn hd (Race.extends_ended hs) _ (hnot hc)

theorem follows_work {probe : Probe} {age : Duration} {t t' : Task}
    (h : t.work probe age = some t') : t.Follows t' := by
  simp only [work] at h
  split at h
  · rename_i hd
    exact follows_next hd h
  · rename_i report hd
    cases h
    have hgo := follows_goOn (by rw [hd]; rfl) [] (.release report) rfl (by simp [hd])
    simpa [send] using hgo
  · rename_i report hd
    cases h
    have hgo := follows_goOn (by rw [hd]; rfl) [] (.tellPhase report) rfl (by simp [hd])
    simpa [send] using hgo
  · rename_i report hd
    cases h
    exact follows_goOn (by rw [hd]; rfl) _ _ rfl (by simp [hd])
  · rename_i report hd
    cases h
    exact follows_goOn (by rw [hd]; rfl) _ _ rfl (by simp [hd])
  · cases h
  · cases h

end Task
end ResolverRace
