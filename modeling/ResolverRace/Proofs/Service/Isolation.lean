import Mathlib.Data.List.Induction
import ResolverRace.Proofs.Service.Schedule

/-!
# Races are left alone

A race takes its candidates from the pool when it is started and looks at nothing but its session
from then on, which nothing that is done aside can touch as long as the race is under way. So two
schedules that differ in what is done aside during a race give it the same course. Once its task has
let go of the session it tells what happened and does nothing else, whatever becomes of the session.

* `Like` — two services with the same race; `Like.act` for one act, `like_purged` for a schedule.
* `Records` — the task of a race records that somebody won it.
* `race_isolated` — two schedules that differ in what is done aside during a race.
-/

namespace ResolverRace
namespace Service

/-- The race with the number `n` is the same: its tests and the instants at which they were started,
the events sent and handled so far, and the report. While it is under way nothing about the session
is different, and it is the same instant. -/
structure SameRace (n : Nat) (s t : Service) : Prop where
  task : s.session.tasks[n]? = t.session.tasks[n]?
  racing : s.Racing n ↔ t.Racing n
  session : s.Racing n → s.session = t.session

/-- In the course of a schedule the task with the number `n` records that `a` has won, whatever is
remembered at that moment. -/
def Records (probe : Probe) (n : Nat) (a : Address) (s : Service) (acts : List Act) : Prop :=
  ∃ before after, acts = before ++ .move (.work n) :: after ∧
    let t := s.actAll probe before
    let t' := t.act probe (.move (.work n))
    t.deed n = .won n a ∧ t'.standing = t.standing.succeeded a ∧
      t'.store = (t.standing.recordSuccess t.store a).2.1

section

variable {probe : Probe} {s t u : Service} {n : Nat} {a : Act} {acts : List Act} {b : Address}

/-! ## Two services with the same race -/

/-- Either all of the session is the same, or the race is over and its task is the same. -/
inductive Like (n : Nat) (s t : Service) : Prop where
  | same : s.session = t.session → Like n s t
  | ended {task : Task} : s.session.token ≠ some n → t.session.token ≠ some n →
      task.duty.holdsSession = false → s.session.tasks[n]? = some task →
      t.session.tasks[n]? = some task → Like n s t

theorem Like.symm (h : Like n s t) : Like n t s := by
  cases h with
  | same h => exact .same h.symm
  | ended hs ht hd htask htask' => exact .ended ht hs hd htask' htask

theorem Like.trans (h₁ : Like n s t) (h₂ : Like n t u) : Like n s u := by
  cases h₁ with
  | same h₁ =>
    cases h₂ with
    | same h₂ => exact .same (h₁.trans h₂)
    | ended ht hu hd htask htask' =>
      rw [← h₁] at ht htask
      exact .ended ht hu hd htask htask'
  | ended hs ht hd htask htask' =>
    cases h₂ with
    | same h₂ =>
      rw [h₂] at ht htask'
      exact .ended hs ht hd htask htask'
    | ended _ hu _ hagain htask'' =>
      rw [htask'] at hagain
      cases hagain
      exact .ended hs hu hd htask htask''

theorem Like.sameRace (h : Like n s t) : SameRace n s t := by
  cases h with
  | same h =>
    refine ⟨by rw [h], ?_, fun _ => h⟩
    rw [Racing, Racing, h]
  | ended hs ht _ htask htask' =>
    exact ⟨htask.trans htask'.symm, iff_of_false (fun hr => hs hr.2) fun hr => ht hr.2,
      fun hr => absurd hr.2 hs⟩

/-- After the race what is done aside leaves its task. -/
theorem ended_aside (probe : Probe) {task : Task} (h : a.isMove = false)
    (hn : s.session.token ≠ some n) (ht : s.session.tasks[n]? = some task) :
    (s.act probe a).session.token ≠ some n ∧ (s.act probe a).session.tasks[n]? = some task := by
  rcases session_aside s h with hsame | hsame | ⟨_, _, hstart⟩
  · rw [hsame]
    exact ⟨hn, ht⟩
  · rw [hsame]
    rcases s.session.acknowledge_cases with ⟨_, ha⟩ | ⟨_, ha⟩ <;>
    · rw [ha]
      exact ⟨hn, ht⟩
  · obtain ⟨_, hstarted⟩ := Session.start_eq_ok hstart
    have hlt : n < s.session.tasks.length := (List.getElem?_eq_some_iff.1 ht).1
    rw [hstarted]
    refine ⟨fun hm => ?_, ?_⟩
    · exact absurd (Option.some.inj hm) (Nat.ne_of_gt hlt)
    · exact (List.getElem?_append_left hlt).trans ht

theorem Like.ended_of_not_racing (h : Like n s t) (hs : s.session.Sound probe)
    (hlt : n < s.session.tasks.length) (hr : ¬s.Racing n) :
    ∃ task, s.session.token ≠ some n ∧ t.session.token ≠ some n ∧
      task.duty.holdsSession = false ∧ s.session.tasks[n]? = some task ∧
      t.session.tasks[n]? = some task := by
  cases h with
  | same h =>
    obtain ⟨hn, task, htask, hd⟩ := Service.ended_of_not_racing hs hlt hr
    rw [← h]
    exact ⟨task, hn, hn, hd, htask, htask⟩
  | ended hn hn' hd htask htask' => exact ⟨_, hn, hn', hd, htask, htask'⟩

/-- One act in both services, unless it is done aside while the race is under way. -/
theorem Like.act (h : Like n s t) (hs : s.session.Sound probe)
    (hlt : n < s.session.tasks.length) (ha : ¬(s.Racing n ∧ a.isMove = false)) :
    Like n (s.act probe a) (t.act probe a) := by
  by_cases hr : s.Racing n
  · -- A move looks at nothing but the session, and that is the same in both.
    rcases a.move_or_aside with ⟨m, rfl⟩ | haside
    · cases h with
      | same h => exact .same (by simp only [Service.act, session_move, h])
      | ended hn => exact absurd hr.2 hn
    · exact absurd ⟨hr, haside⟩ ha
  · -- The sessions may go apart from here, but the task of the race is out of their reach.
    obtain ⟨task, hn, hn', hd, htask, htask'⟩ := h.ended_of_not_racing hs hlt hr
    rcases a.move_or_aside with ⟨m, rfl⟩ | haside
    · have hmoved := Session.task_move probe htask hd hn m
      have hmoved' := Session.task_move probe htask' hd hn' m
      rw [← session_move] at hmoved hmoved'
      refine .ended ?_ ?_ (m.onTask_holdsSession probe n hd) hmoved hmoved'
      · simp only [Service.act, session_move]
        exact Session.token_move hn m
      · simp only [Service.act, session_move]
        exact Session.token_move hn' m
    · obtain ⟨htoken, hkept⟩ := ended_aside probe haside hn htask
      obtain ⟨htoken', hkept'⟩ := ended_aside probe haside hn' htask'
      exact .ended htoken htoken' hd hkept hkept'

/-- What is done aside during a race can be left out. -/
theorem like_purged (h : Like n s t) (hs : s.session.Sound probe)
    (hlt : n < s.session.tasks.length) (acts : List Act) :
    Like n (s.actAll probe acts) (t.actAll probe (purged probe n s acts)) := by
  induction acts generalizing s t with
  | nil => exact h
  | cons a acts ih =>
    have hs' := sound_act hs a
    have hlt' := Nat.lt_of_lt_of_le hlt (length_le_act hs a)
    rw [purged]
    split
    · rename_i hpurged
      exact ih ((Like.same (racing_aside hpurged.1 hpurged.2)).trans h) hs' hlt'
    · rename_i hkept
      exact ih (h.act hs hlt hkept) hs' hlt'

theorem Like.of_purged (hs : s.session.Sound probe) (hlt : n < s.session.tasks.length)
    {acts₁ acts₂ : List Act} (h : purged probe n s acts₁ = purged probe n s acts₂) :
    Like n (s.actAll probe acts₁) (s.actAll probe acts₂) := by
  have h₁ : Like n (s.actAll probe acts₁) (s.actAll probe (purged probe n s acts₁)) :=
    like_purged (.same rfl) hs hlt acts₁
  have h₂ : Like n (s.actAll probe acts₂) (s.actAll probe (purged probe n s acts₂)) :=
    like_purged (.same rfl) hs hlt acts₂
  rw [h] at h₁
  exact h₁.trans h₂.symm

/-! ## Winners -/

theorem recorded_work {m : Nat} {tracked : Tracked} (h : s.toTracked.work probe m = some tracked)
    (n : Nat) :
    tracked.session.recorded? n = s.session.recorded? n ∨
      (m = n ∧ ∃ b, s.deed n = .won n b ∧ tracked.session.recorded? n = some b ∧
        tracked.standing = s.standing.succeeded b ∧
        tracked.store = (s.standing.recordSuccess s.store b).2.1) := by
  obtain ⟨session, hwork, rfl⟩ := work_cases h
  obtain ⟨hothers, hself⟩ := Session.settled?_work hwork
  by_cases hmn : m = n
  · subst hmn
    rcases hself with ⟨t, report, ht, hd, hnone, hsome⟩ | ⟨_, hkept⟩
    · have hrecording : s.session.recording? m = some report := by
        rw [Session.recording?, ht, Option.bind_some, hd]
        rfl
      have hafter : session.recorded? m = report.winner? := by
        rw [Session.recorded?, hsome, Option.bind_some]
      have hwinner : (s.session.recording? m).bind Report.winner? = report.winner? := by
        rw [hrecording, Option.bind_some]
      cases hw : report.winner? with
      | none =>
        left
        show session.recorded? m = _
        rw [hafter, hw, Session.recorded?, hnone, Option.bind_none]
      | some b =>
        rw [hw] at hafter hwinner
        refine .inr ⟨rfl, b, by rw [deed_eq, hwinner], hafter, ?_⟩
        rw [recordWinner_eq, hwinner]
        exact ⟨s.standing.recordSuccess_fst s.store b, rfl⟩
    · exact .inl (Session.recorded?_congr hkept)
  · exact .inl (Session.recorded?_congr (hothers n (Ne.symm hmn)))

/-- What is recorded of a race stays as it is, but for the act in which its task records the
winner. -/
theorem recorded_act (probe : Probe) (s : Service) (a : Act) (n : Nat) :
    (s.act probe a).session.recorded? n = s.session.recorded? n ∨
      (a = .move (.work n) ∧ ∃ b, s.deed n = .won n b ∧
        (s.act probe a).session.recorded? n = some b ∧
        (s.act probe a).standing = s.standing.succeeded b ∧
        (s.act probe a).store = (s.standing.recordSuccess s.store b).2.1) := by
  rcases a.move_or_aside with ⟨m, rfl⟩ | haside
  · cases m with
    | work m =>
      cases hwork : s.toTracked.work probe m with
      | none =>
        left
        simp only [act, move, hwork, Option.getD_none]
      | some tracked =>
        simp only [act, move, hwork, Option.getD_some]
        rcases recorded_work hwork n with hsame | ⟨rfl, hwon⟩
        · exact .inl hsame
        · exact .inr ⟨rfl, hwon⟩
    | deliver m =>
      left
      simp only [act, session_move, Session.move]
      cases hq : s.session.deliver m with
      | none => rfl
      | some session => exact Session.recorded?_congr (Session.settled?_deliver hq n)
    | pass now =>
      left
      simp only [act, session_move, Session.move]
      split <;> rfl
    | cancel => exact .inl (Session.recorded?_congr (s.session.settled?_cancel n))
    | collect => exact .inl rfl
  · left
    rcases session_aside s haside with hsame | hsame | ⟨_, _, hstart⟩
    · rw [hsame]
    · rw [hsame]
      exact Session.recorded?_congr (s.session.settled?_acknowledge n)
    · exact Session.recorded?_congr (Session.settled?_start hstart n)

/-- What has been recorded of a race at the end was recorded on the way. -/
theorem records_of_recorded (hnone : s.session.recorded? n = none)
    (hsome : (s.actAll probe acts).session.recorded? n = some b) : Records probe n b s acts := by
  induction acts using List.reverseRecOn with
  | nil =>
    rw [show s.actAll probe [] = s from rfl, hnone] at hsome
    cases hsome
  | append_singleton acts a ih =>
    rw [actAll_append] at hsome
    rcases recorded_act probe (s.actAll probe acts) a n with
      hsame | ⟨rfl, c, hdeed, hc, hrecord⟩
    · obtain ⟨before, after, rfl, hrecords⟩ := ih (hsame.symm.trans hsome)
      exact ⟨before, after ++ [a], by simp, hrecords⟩
    · obtain rfl : c = b := Option.some.inj (hc.symm.trans hsome)
      exact ⟨acts, [], rfl, hdeed, hrecord⟩

/-- The winner of a race that is no longer under way has been recorded. -/
theorem recorded_of_winner (h : s.session.Sound probe) (hr : ¬s.Racing n)
    (hwinner : s.session.winner? n = some b) : s.session.recorded? n = some b := by
  obtain ⟨report, hreport, hb⟩ := Option.bind_eq_some_iff.1 hwinner
  obtain ⟨task, htask, hduty⟩ := Option.bind_eq_some_iff.1 hreport
  have hlt : n < s.session.tasks.length := (List.getElem?_eq_some_iff.1 htask).1
  obtain ⟨_, task', htask', hd⟩ := ended_of_not_racing h hlt hr
  obtain rfl := Option.some.inj (htask.symm.trans htask')
  have hsettled : task.duty.settled? = some report := by
    cases hcase : task.duty with
    | race | broken | record | release =>
      rw [hcase] at hd
      cases hd
    | tellPhase | tellEnd | «over» =>
      rw [hcase] at hduty
      exact hduty
  rw [Session.recorded?, Session.settled?, htask, Option.bind_some, hsettled]
  exact hb

end

/-- A race is started, and two schedules go on from there that differ only in what is done aside
while it is under way: outcomes are reported, lists are edited and read again, sources are selected
and previewed, races are started and refused, ends are taken note of, and other processes write to
the store. At every moment of one there is a moment of the other at which the race is the same, and
at the end it is the same. If it was won, its winner is recorded in both. -/
theorem race_isolated {probe : Probe} {s : Service} (hs : Scheduled probe s) {params : Params}
    (hstart : (s.start probe params).2 = .ok ()) {acts₁ acts₂ : List Act}
    (hsame : purged probe s.session.tasks.length (s.start probe params).1 acts₁ =
      purged probe s.session.tasks.length (s.start probe params).1 acts₂) :
    let n := s.session.tasks.length
    let started := (s.start probe params).1
    started.Racing n ∧
      SameRace n (started.actAll probe acts₁) (started.actAll probe acts₂) ∧
      (∀ before₁, before₁ <+: acts₁ → ∃ before₂, before₂ <+: acts₂ ∧
        SameRace n (started.actAll probe before₁) (started.actAll probe before₂)) ∧
      ∀ a, (started.actAll probe acts₁).session.winner? n = some a →
        ¬(started.actAll probe acts₁).Racing n →
        Records probe n a started acts₁ ∧ Records probe n a started acts₂ := by
  intro n started
  obtain ⟨session, hsession, hbegun⟩ : ∃ session,
      s.session.start probe params s.favoured.candidates = .ok session ∧
        started.session = session := by
    simp only [start] at hstart
    split at hstart
    · rename_i session hsession
      exact ⟨session, hsession, by simp only [started, start, hsession]⟩
    · cases hstart
  have hsound : started.session.Sound probe := (hs.act (.ask (.start params) rfl)).sound
  obtain ⟨_, hnew⟩ := Session.start_eq_ok hsession
  have hracing : started.Racing n := by
    rw [Racing, hbegun, hnew]
    exact ⟨rfl, rfl⟩
  have hlt : n < started.session.tasks.length := by
    rw [hbegun, hnew]
    simp [n]
  have hnone : started.session.recorded? n = none := by
    rw [hbegun, Session.recorded?_congr (Session.settled?_start hsession n)]
    exact Option.eq_none_iff_forall_not_mem.2 fun a ha =>
      absurd (Session.lt_of_recorded ha) (Nat.lt_irrefl n)
  have hends := (Like.of_purged hsound hlt hsame).sameRace
  refine ⟨hracing, hends, fun before₁ hbefore₁ => ?_, fun a hwinner hover => ?_⟩
  · obtain ⟨rest, rfl⟩ := hbefore₁
    rw [purged_append] at hsame
    obtain ⟨before₂, hbefore₂, hequal⟩ := exists_prefix_of_purged ⟨_, hsame⟩
    exact ⟨before₂, hbefore₂, (Like.of_purged hsound hlt hequal.symm).sameRace⟩
  · have hrecorded := recorded_of_winner (sound_actAll hsound acts₁) hover hwinner
    refine ⟨records_of_recorded hnone hrecorded, records_of_recorded hnone ?_⟩
    rw [Session.recorded?, Session.settled?, ← hends.task]
    exact hrecorded

/-- While a race is under way the selected list is deleted, the resolver that is about to win is
reported to fail, and another start is refused; its win is recorded all the same. -/
theorem race_isolated_from_edits :
    let settings : Settings := { Settings.default with
      selection := { Selection.default with source := .custom "home" }
      lists := [⟨"home", "Home", ["9.9.9.9", "1.1.1.1"]⟩] }
    let chance : Random.Stream := ⟨fun _ => 0, 0⟩
    let winner : Address := wellKnown 1 1 1 1
    let probe : Probe := fun a _ _ =>
      if a = winner then ⟨some (millis 50), .success (millis 50)⟩ else ⟨none, .failure ""⟩
    let toDecision : List Act := [.move (.pass (millis 50)), .move (.work 0)]
    let toRelease : List Act := [.move (.work 0), .move (.work 0)]
    let aside : List Act := [.ask (.removeList "home" chance) rfl,
      .ask (.notify winner false) rfl, .ask (.start .default) rfl]
    let alone : List Act := toDecision ++ toRelease
    let disturbed : List Act := aside ++ (toDecision ++ (aside ++ toRelease))
    ∃ s, create settings (.inMemory .empty .empty) chance = .ok s ∧
      (s.start probe .default).2 = .ok () ∧
      let started := (s.start probe .default).1
      purged probe 0 started alone = purged probe 0 started disturbed ∧
      SameRace 0 (started.actAll probe alone) (started.actAll probe disturbed) ∧
      Records probe 0 winner started alone ∧ Records probe 0 winner started disturbed := by
  intro settings chance winner probe toDecision toRelease aside alone disturbed
  let started (s : Service) : Service := (s.start probe .default).1
  have hrun : (create settings (.inMemory .empty .empty) chance).toOption.map (fun s =>
      (s.session.tasks.length, (s.start probe .default).2, decide ((started s).Racing 0 ∧
        ((started s).actAll probe (aside ++ toDecision)).Racing 0 ∧
        ((started s).actAll probe alone).session.winner? 0 = some winner ∧
        ¬((started s).actAll probe alone).Racing 0))) = some (0, .ok (), true) := by
    simp only [settings, chance, winner, probe, toDecision, toRelease, aside, alone, started]
    decide +kernel
  obtain ⟨s, hs, hseen⟩ := Option.map_eq_some_iff.1 hrun
  simp only [Prod.mk.injEq, decide_eq_true_eq] at hseen
  obtain ⟨hlength, hstart, hracing, hdecided, hwinner, hover⟩ := hseen
  have hcreate := eq_ok_of_toOption hs
  have hpurged : purged probe 0 (started s) disturbed = alone := by
    rw [purged_append, purged_asides hracing (by simp [aside, Act.isMove]), purged_append,
      purged_moves _ (by simp [toDecision, Act.isMove]), purged_append, ← actAll_append,
      purged_asides hdecided (by simp [aside, Act.isMove]),
      purged_moves _ (by simp [toRelease, Act.isMove])]
    rfl
  have hsame : purged probe 0 (started s) alone = purged probe 0 (started s) disturbed := by
    rw [hpurged]
    exact purged_moves _ (by simp [alone, toDecision, toRelease, Act.isMove])
  have hisolated := race_isolated (.create hcreate) hstart (hlength.symm ▸ hsame)
  simp only [hlength] at hisolated
  obtain ⟨_, hends, _, hrecords⟩ := hisolated
  exact ⟨s, hcreate, hstart, hsame, hends, hrecords winner hwinner hover⟩

end Service
end ResolverRace
