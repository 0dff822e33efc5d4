import ResolverRace.Proofs.Lists
import ResolverRace.Proofs.Session.History
import ResolverRace.Proofs.Session.Recorded
import ResolverRace.Service.Interleaving

/-!
# What the deeds of a run tell

Whatever order tasks, handlers and callers act in, the outcomes among their deeds, one after
another, tell what is remembered, and the wins among the deeds of a task tell what has been recorded
of its race.

* `Standing.note` — what is remembered after one more outcome.
* `Run.standing`, `Run.recorded` — what the deeds tell, from one lemma for a step each.
* `Run.sane` — what holds of every session on the way.
* `Run.won_lt` — once it is seen that a race was won, wins are of later races.
-/

namespace ResolverRace

/-- What is remembered after one more outcome. -/
def Standing.note (t : Standing) : Verdict → Standing
  | .worked a => t.succeeded a
  | .failed a => t.failed a

namespace Service

namespace Deed

/-- The outcome that is recorded. -/
def verdict? : Deed → Option Verdict
  | .won _ a => some (.worked a)
  | .reported a true => some (.worked a)
  | .reported a false => some (.failed a)
  | .went _ | .other => none

/-- The winner that is recorded. -/
def won? : Deed → Option Address
  | .won _ a => some a
  | .went _ | .reported .. | .other => none

/-- The winner that is recorded by the task with the number `n`. -/
def wonBy? (n : Nat) : Deed → Option Address
  | .won m a => if m = n then some a else none
  | .went _ | .reported .. | .other => none

end Deed

/-- The outcomes that were recorded. -/
def verdicts (deeds : List Deed) : List Verdict := deeds.filterMap Deed.verdict?

/-- The winners that tasks have recorded. -/
def wins (deeds : List Deed) : List Address := deeds.filterMap Deed.won?

/-- The winners that the task with the number `n` has recorded. -/
def winsOf (n : Nat) (deeds : List Deed) : List Address := deeds.filterMap (Deed.wonBy? n)

/-- What holds of a session at any moment. -/
structure Sane (probe : Probe) (s : Session) : Prop where
  sound : s.Sound probe
  latest : s.Latest

section

variable {probe : Probe} {s s' : Service} {d : Deed} {deeds : List Deed} {n : Nat} {a : Address}

/-! ## Tasks -/

theorem recordWinner_eq (t : Tracked) (report : Option Report) :
    t.recordWinner report = match report.bind Report.winner? with
      | some a => (t.recordSuccess a).1
      | none => t := by
  rw [Tracked.recordWinner]
  cases report with
  | none => rfl
  | some report =>
    simp only [Option.bind_some, Report.winner?]
    cases report.outcome.winner? <;> rfl

theorem deed_eq (s : Service) (n : Nat) :
    s.deed n = match (s.session.recording? n).bind Report.winner? with
      | some a => .won n a
      | none => .went n := by
  rw [deed]
  cases s.session.recording? n with
  | none => rfl
  | some report =>
    simp only [Option.bind_some, Report.winner?]
    cases report.outcome.winner? <;> rfl

theorem work_cases {tracked : Tracked} (h : s.toTracked.work probe n = some tracked) :
    ∃ session, s.session.work probe n = some session ∧
      tracked = { s.toTracked.recordWinner (s.session.recording? n) with session := session } := by
  obtain ⟨session, hwork, rfl⟩ := Option.map_eq_some_iff.1 h
  exact ⟨session, hwork, rfl⟩

theorem duty_of_recording {x : Session} {report : Report} (h : x.recording? n = some report) :
    ∃ t, x.tasks[n]? = some t ∧ t.duty = .record report := by
  obtain ⟨t, ht, hrecording⟩ := Option.bind_eq_some_iff.1 h
  refine ⟨t, ht, ?_⟩
  cases hd : t.duty with
  | record =>
    rw [hd] at hrecording
    cases hrecording
    rfl
  | race | broken | release | tellPhase | tellEnd | «over» =>
    rw [hd] at hrecording
    cases hrecording

/-! ## One step -/

/-- What a step does to the session is one step of the session, or nothing. -/
theorem Step.session (h : Step probe s d s') :
    s'.session = s.session ∨ Session.Step probe s.session s'.session := by
  cases h with
  | work h =>
    obtain ⟨session, hwork, rfl⟩ := work_cases h
    exact .inr (.work hwork)
  | report a worked => cases worked <;> exact .inl rfl
  | begin h => exact .inr (.start h)
  | cancel => exact .inr .cancel
  | acknowledge => exact .inr .acknowledge
  | deliver h => exact .inr (.deliver h)
  | pass hle hsleep => exact .inr (.pass hle hsleep)
  | collect => exact .inr .collect
  | arrange => exact .inl rfl

theorem Step.latest (h : Step probe s d s') (hs : Sane probe s.session) : s'.session.Latest := by
  cases h with
  | work h =>
    obtain ⟨session, hwork, rfl⟩ := work_cases h
    exact hs.latest.work hs.sound hwork
  | report a worked => cases worked <;> exact hs.latest
  | begin h => exact Session.latest_of_start h
  | cancel => exact hs.latest.cancel
  | acknowledge => exact hs.latest.acknowledge
  | deliver h => exact hs.latest.deliver h
  | pass => exact ⟨hs.latest.token, hs.latest.succeeded⟩
  | collect => exact ⟨hs.latest.token, hs.latest.succeeded⟩
  | arrange => exact hs.latest

theorem Step.sane (h : Step probe s d s') (hs : Sane probe s.session) : Sane probe s'.session := by
  refine ⟨?_, h.latest hs⟩
  rcases h.session with he | hstep
  · rw [he]
    exact hs.sound
  · exact Session.step_sound hs.sound hstep

theorem Step.length_le (h : Step probe s d s') (hs : Sane probe s.session) :
    s.session.tasks.length ≤ s'.session.tasks.length := by
  rcases h.session with he | hstep
  · exact Nat.le_of_eq (congrArg (·.tasks.length) he.symm)
  · rcases Session.step_tasks hs.sound hstep with he | ⟨_, _, _, _, _, he⟩ | ⟨_, he⟩
    all_goals simp [he]

theorem Step.standing (h : Step probe s d s') :
    s'.standing = d.verdict?.toList.foldl Standing.note s.standing := by
  cases h with
  | @work n _ h =>
    obtain ⟨session, _, rfl⟩ := work_cases h
    rw [recordWinner_eq, deed_eq]
    cases (s.session.recording? n).bind Report.winner? with
    | none => rfl
    | some a => exact s.standing.recordSuccess_fst s.store a
  | report a worked =>
    cases worked with
    | true => exact s.standing.recordSuccess_fst s.store a
    | false => rfl
  | begin | cancel | acknowledge | deliver | pass | collect | arrange => rfl

/-- A step records a winner exactly if its deed is a win. -/
theorem Step.recorded (h : Step probe s d s') (n : Nat) :
    (s.session.recorded? n).toList ++ (d.wonBy? n).toList = (s'.session.recorded? n).toList := by
  -- Only a task whose duty is to record settles a report; all other steps leave what is settled.
  have hsame {x : Session} (hx : x.settled? n = s.session.settled? n) :
      (s.session.recorded? n).toList ++ [] = (x.recorded? n).toList := by
    rw [List.append_nil, Session.recorded?_congr hx]
  cases h with
  | @work m _ h =>
    obtain ⟨session, hwork, rfl⟩ := work_cases h
    show _ = (session.recorded? n).toList
    rw [deed_eq]
    obtain ⟨hothers, hself⟩ := Session.settled?_work hwork
    by_cases hmn : m = n
    · subst hmn
      rcases hself with ⟨t, report, ht, hd, hnone, hsome⟩ | ⟨hnot, hkept⟩
      · have hrecording : s.session.recording? m = some report := by
          rw [Session.recording?, ht, Option.bind_some, hd]
          rfl
        rw [hrecording, Session.recorded?, Session.recorded?, hnone, hsome]
        simp only [Option.bind_none, Option.bind_some]
        cases report.winner? <;> simp [Deed.wonBy?]
      · have hrecording : s.session.recording? m = none := by
          refine Option.eq_none_iff_forall_not_mem.2 fun report hreport => ?_
          obtain ⟨t, ht, hd⟩ := duty_of_recording hreport
          exact hnot t report ht hd
        rw [hrecording]
        exact hsame hkept
    · have hother := hothers n (Ne.symm hmn)
      cases (s.session.recording? m).bind Report.winner? with
      | none => exact hsame hother
      | some a =>
        simp only [Deed.wonBy?, if_neg hmn]
        exact hsame hother
  | report a worked => cases worked <;> exact hsame rfl
  | begin h => exact hsame (Session.settled?_start h n)
  | cancel => exact hsame (Session.settled?_cancel s.session n)
  | acknowledge => exact hsame (Session.settled?_acknowledge s.session n)
  | deliver h => exact hsame (Session.settled?_deliver h n)
  | pass => exact hsame rfl
  | collect => exact hsame rfl
  | arrange => exact hsame rfl

/-- The task that records a winner holds the session, so no race has been started after its own. -/
theorem Step.won_last (h : Step probe s (.won n a) s') (hs : Sane probe s.session) :
    n + 1 = s.session.tasks.length := by
  generalize hd : Deed.won n a = d at h
  cases h with
  | @work m _ h =>
    rw [deed_eq] at hd
    cases hwinner : (s.session.recording? m).bind Report.winner? with
    | none =>
      rw [hwinner] at hd
      cases hd
    | some b =>
      rw [hwinner] at hd
      cases hd
      obtain ⟨report, hrecording, _⟩ := Option.bind_eq_some_iff.1 hwinner
      obtain ⟨t, ht, hduty⟩ := duty_of_recording hrecording
      exact hs.latest.token n (hs.sound.held n t ht (by rw [hduty]; rfl))
  | report | begin | cancel | acknowledge | deliver | pass | collect | arrange => cases hd

/-- A task that does anything else leaves what is remembered and what is stored. -/
theorem Step.went (h : Step probe s (.went n) s') :
    s'.standing = s.standing ∧ s'.store = s.store := by
  generalize hd : Deed.went n = d at h
  cases h with
  | @work m _ h =>
    obtain ⟨session, _, rfl⟩ := work_cases h
    rw [deed_eq] at hd
    rw [recordWinner_eq]
    cases hwinner : (s.session.recording? m).bind Report.winner? with
    | none => exact ⟨rfl, rfl⟩
    | some b =>
      rw [hwinner] at hd
      cases hd
  | report | begin | cancel | acknowledge | deliver | pass | collect | arrange => cases hd

/-! ## Runs -/

theorem Run.trans {u : Service} {more : List Deed} (h₁ : Run probe s deeds s')
    (h₂ : Run probe s' more u) : Run probe s (deeds ++ more) u := by
  induction h₂ with
  | refl =>
    rw [List.append_nil]
    exact h₁
  | next _ hstep ih =>
    rw [← List.append_assoc]
    exact .next ih hstep

theorem Step.run (h : Step probe s d s') : Run probe s [d] s' := .next .refl h

theorem Run.sane (h : Run probe s deeds s') (hs : Sane probe s.session) :
    Sane probe s'.session := by
  induction h with
  | refl => exact hs
  | next _ hstep ih => exact hstep.sane ih

theorem Run.length_le (h : Run probe s deeds s') (hs : Sane probe s.session) :
    s.session.tasks.length ≤ s'.session.tasks.length := by
  induction h with
  | refl => exact Nat.le_refl _
  | next hrun hstep ih => exact Nat.le_trans ih (hstep.length_le (hrun.sane hs))

theorem Run.standing (h : Run probe s deeds s') :
    s'.standing = (verdicts deeds).foldl Standing.note s.standing := by
  induction h with
  | refl => rfl
  | next _ hstep ih => rw [hstep.standing, ih, verdicts, verdicts, filterMap_concat, List.foldl_append]

theorem Run.recorded (h : Run probe s deeds s') (n : Nat) :
    (s.session.recorded? n).toList ++ winsOf n deeds = (s'.session.recorded? n).toList := by
  induction h with
  | refl => exact List.append_nil _
  | next _ hstep ih =>
    rw [← hstep.recorded n, ← ih, winsOf, winsOf, filterMap_concat, List.append_assoc]

theorem Run.winsOf_eq_nil (h : Run probe s deeds s') (ha : s.session.recorded? n = some a) :
    winsOf n deeds = [] := by
  have hcount := congrArg List.length (h.recorded n)
  rw [ha, List.length_append, Option.toList_some, List.length_singleton] at hcount
  have hle : (s'.session.recorded? n).toList.length ≤ 1 := by
    cases s'.session.recorded? n <;> simp
  exact List.length_eq_zero_iff.1 (by omega)

/-- After the winner of a race has been recorded, wins are of races that were started later. -/
theorem Run.won_lt {m : Nat} {b : Address} (h : Run probe s deeds s') (hs : Sane probe s.session)
    (ha : s.session.recorded? n = some a) (hwon : Deed.won m b ∈ deeds) : n < m := by
  have hnever : winsOf n deeds = [] := h.winsOf_eq_nil ha
  have hne : n ≠ m := by
    rintro rfl
    have hin : b ∈ winsOf n deeds :=
      List.mem_filterMap.2 ⟨.won n b, hwon, by simp [Deed.wonBy?]⟩
    rw [hnever] at hin
    cases hin
  -- Who records holds the session, so at that moment no race was started after its own, and the
  -- race `n` had been started already.
  have hle : n ≤ m := by
    clear hnever hne
    induction h with
    | refl => cases hwon
    | next hrun hstep ih =>
      rcases List.mem_append.1 hwon with hwon | hwon
      · exact ih hwon
      · obtain rfl := List.mem_singleton.1 hwon
        have hlast := hstep.won_last (hrun.sane hs)
        have hlt := Nat.lt_of_lt_of_le (Session.lt_of_recorded ha) (hrun.length_le hs)
        omega
  omega

end

end Service
end ResolverRace
