import ResolverRace.Proofs.Race.Course
import ResolverRace.Proofs.Session.Invariant

/-!
# Calls are runs of steps

`Session.advance` and `Session.wait` do at once what a task and its handler do one by one. Here the
same is done by steps, so that whatever holds of all states reached by steps holds of all states
reached by calls. Between two calls a session is `Quiet`: its races are undecided or wholly over, or
the last of them has broken down.

* `later_counts`, `later_closing`, `later_deliver` — parts of a call, done by steps.
* `settle_later` — a whole course of a race, done by steps.
* `perform_later`, `run_later` — every call and every sequence of calls.
* `wait_rests` — after a wait no race is undecided and everything told was handled.
-/

namespace ResolverRace

namespace Task

theorem moveOn_moveOn {t : Task} {r r' : Race} (h : t.race.Extends r) (h' : r.Extends r') :
    (t.moveOn r).moveOn r' = t.moveOn r' := by
  have hle : t.race.tested ≤ r.progress.length := by
    rw [Race.length_progress]
    exact h.counted.length_le
  have hnews : t.news r ++ (t.moveOn r).news r' = t.news r' := by
    simp only [news, moveOn, ← List.map_append]
    rw [Race.progress_eq_append h', List.drop_append_of_le_length hle, ← Race.progress_eq_append h']
  simp only [moveOn, send, List.append_assoc] at hnews ⊢
  rw [← hnews]

theorem decide_moveOn {t : Task} {r r' : Race} (h : t.race.Extends r) (h' : r.Extends r')
    (outcome : Outcome) (elapsed : Duration) :
    (t.moveOn r).decide r' outcome elapsed = t.decide r' outcome elapsed := by
  simp only [decide, moveOn_moveOn h h']

/-- The race of a task goes on by results, if it is undecided. -/
structure Runs (t : Task) : Prop where
  nonempty : t.race.total ≠ 0
  uncancelled : t.cancelled = false
  hasDeadline : t.HasDeadline
  hasBound : t.race.params.HasBound

theorem Runs.moveOn {t : Task} {race : Race} (h : t.Runs) (hr : t.race.Extends race) :
    (t.moveOn race).Runs := by
  have hsame : (t.moveOn race).HasDeadline ↔ t.HasDeadline := hasDeadline_congr hr.params rfl
  refine ⟨?_, h.uncancelled, hsame.2 h.hasDeadline, ?_⟩
  · show race.total ≠ 0
    rw [hr.total]
    exact h.nonempty
  · show race.params.HasBound
    rw [hr.params]
    exact h.hasBound

theorem Runs.sleepsUntil {t : Task} {now : Duration} (h : t.Runs)
    (hdue : now ≤ t.startedAt + t.race.due) : t.SleepsUntil now :=
  fun _ => ⟨h.nonempty, h.uncancelled, h.hasDeadline, h.hasBound, hdue⟩

/-- A race either goes on by results, or there is something that comes before all results. -/
theorem runs_or (t : Task) :
    t.race.total = 0 ∨ (t.race.total ≠ 0 ∧ t.cancelled = true) ∨
    (t.race.total ≠ 0 ∧ t.cancelled = false ∧ ¬t.HasDeadline) ∨
    (t.race.total ≠ 0 ∧ t.cancelled = false ∧ t.HasDeadline ∧ ¬t.race.params.HasBound) ∨
    t.Runs := by
  by_cases h0 : t.race.total = 0
  · exact .inl h0
  · cases hc : t.cancelled with
    | true => exact .inr (.inl ⟨h0, rfl⟩)
    | false =>
      by_cases hd : t.HasDeadline
      · by_cases hb : t.race.params.HasBound
        · exact .inr (.inr (.inr (.inr ⟨h0, hc, hd, hb⟩)))
        · exact .inr (.inr (.inr (.inl ⟨h0, rfl, hd, hb⟩)))
      · exact .inr (.inr (.inl ⟨h0, rfl, hd⟩))

theorem next_counted {probe : Probe} {age : Duration} {t : Task} {race : Race}
    (h : t.Runs) (hdue : t.race.due ≤ age) (hs : t.race.step probe = .counted race) :
    t.next probe age = some (t.moveOn race) := by
  simp [next, h.nonempty, h.uncancelled, h.hasDeadline, h.hasBound, Nat.not_lt.2 hdue, hs]

theorem next_ended {probe : Probe} {age : Duration} {t : Task} {race : Race} {outcome : Outcome}
    {elapsed : Duration} (h : t.Runs) (hdue : t.race.due ≤ age)
    (hs : t.race.step probe = .ended race outcome elapsed) :
    t.next probe age = some (t.decide race outcome elapsed) := by
  simp [next, h.nonempty, h.uncancelled, h.hasDeadline, h.hasBound, Nat.not_lt.2 hdue, hs]

end Task

namespace Session

theorem Step.later {probe : Probe} {s s' : Session} (hs : Step probe s s') : Later probe s s' :=
  .next (.refl s) hs

/-- The session at the instant `now`, with `t` in the place of the task with the number `n`. -/
def amid (s : Session) (n : Nat) (t : Task) (now : Duration) : Session :=
  { s with now := now, tasks := s.tasks.set n t }

section

variable {probe : Probe} {s : Session} {n : Nat} {t t' : Task} {now now' : Duration}

theorem amid_self (ht : s.tasks[n]? = some t) : s.amid n t s.now = s := by
  obtain ⟨hn, rfl⟩ := List.getElem?_eq_some_iff.1 ht
  simp [amid]

/-! ## Parts of a call -/

theorem step_work (hn : n < s.tasks.length) (hw : t.work probe (now - t.startedAt) = some t') :
    Step probe (s.amid n t now) ((s.letGo t.duty).amid n t' now) := by
  refine .work (n := n) ?_
  simp only [work, amid, List.getElem?_set_self hn, hw, Option.map_some]
  cases t.duty <;> simp [letGo, put, release]

theorem step_next (hn : n < s.tasks.length) (hd : t.duty = .race)
    (hnext : t.next probe (now - t.startedAt) = some t') :
    Step probe (s.amid n t now) (s.amid n t' now) := by
  have hstep : Step probe (s.amid n t now) ((s.letGo t.duty).amid n t' now) :=
    step_work hn (by rw [Task.work, hd]; exact hnext)
  rw [hd] at hstep
  exact hstep

theorem step_pass (hle : now ≤ now')
    (hothers : ∀ m u, m ≠ n → s.tasks[m]? = some u → u.duty ≠ .race)
    (ht : t.SleepsUntil now') : Step probe (s.amid n t now) (s.amid n t now') := by
  refine .pass hle fun u hu => ?_
  obtain ⟨m, hm⟩ := List.mem_iff_getElem?.1 hu
  have hm' : (s.tasks.set n t)[m]? = some u := hm
  by_cases hmn : n = m
  · subst hmn
    have hn : n < s.tasks.length := by
      simpa using (List.getElem?_eq_some_iff.1 hm').1
    rw [List.getElem?_set_self hn] at hm'
    cases hm'
    exact ht
  · rw [List.getElem?_set_ne hmn] at hm'
    exact fun hrace => absurd hrace (hothers m u (Ne.symm hmn) hm')

/-- The handler handles everything that was sent. -/
theorem later_deliver (hn : n < s.tasks.length) :
    Later probe (s.amid n t now) (s.amid n t.deliver now) := by
  induction hq : t.queue generalizing t with
  | nil =>
    have hsame : t.deliver = t := by
      cases t
      cases hq
      simp [Task.deliver]
    rw [hsame]
    exact .refl _
  | cons e rest ih =>
    let t' : Task := { t with queue := rest, handled := t.handled ++ [e] }
    have hstep : Step probe (s.amid n t now) (s.amid n t' now) := by
      refine .deliver (n := n) ?_
      simp [deliver, amid, List.getElem?_set_self hn, Task.handleOne, hq, put, t']
    have hsame : t'.deliver = t.deliver := by
      simp [Task.deliver, t', hq]
    rw [← hsame]
    exact hstep.later.trans (ih (t := t') rfl)

/-- What follows the end of a race. -/
theorem later_closing {report : Report} (hn : n < s.tasks.length) (hd : t.duty = .record report) :
    Later probe (s.amid n t now) ((s.release report).amid n (t.conclude report) now) := by
  let t₁ : Task := { t with duty := .release report }
  let t₂ : Task := { t with duty := .tellPhase report }
  let t₃ : Task := { t.send [Task.phaseEvent report] with duty := .tellEnd report }
  let t₄ : Task := { t₃.send [Task.endEvent report] with duty := .over report }
  have h₁ : Step probe (s.amid n t now) (s.amid n t₁ now) := by
    have hstep : Step probe (s.amid n t now) ((s.letGo t.duty).amid n t₁ now) :=
      step_work hn (by simp [Task.work, hd, t₁])
    rw [hd] at hstep
    exact hstep
  have h₂ : Step probe (s.amid n t₁ now) ((s.release report).amid n t₂ now) :=
    step_work (t := t₁) hn rfl
  have h₃ : Step probe ((s.release report).amid n t₂ now) ((s.release report).amid n t₃ now) :=
    step_work (t := t₂) hn rfl
  have h₄ : Step probe ((s.release report).amid n t₃ now) ((s.release report).amid n t₄ now) :=
    step_work (t := t₃) hn rfl
  have hsame : t₄.deliver = t.conclude report := by
    simp [Task.conclude, Task.deliver, Task.send, Task.closing, t₄, t₃]
  rw [← hsame]
  exact h₁.later.trans (h₂.later.trans (h₃.later.trans (h₄.later.trans (later_deliver hn))))

/-- The race counts results, each at the instant at which it is due. -/
theorem later_counts {params : Params} {candidates : List Candidate} {limit : Option Duration}
    {r : Race} (hn : n < s.tasks.length)
    (hothers : ∀ m u, m ≠ n → s.tasks[m]? = some u → u.duty ≠ .race) (hd : t.duty = .race)
    (hruns : t.Runs) (hrace : t.race.Sound probe params candidates)
    (hdue : now ≤ t.startedAt + t.race.due)
    (hlimit : limit.any (· ≤ now - t.startedAt) = false)
    (hcounts : Race.Counts probe limit none t.race r) :
    t.race.Extends r ∧ ∃ now', now' ≤ t.startedAt + r.due ∧
      limit.any (· ≤ now' - t.startedAt) = false ∧
      Later probe (s.amid n t now) (s.amid n (t.moveOn r) now') := by
  induction hcounts with
  | refl =>
    rw [Task.moveOn_self]
    exact ⟨.refl _, now, hdue, hlimit, .refl _⟩
  | @next r r' hcounts hl hs _ ih =>
    obtain ⟨hr, now₁, hnow₁, _, hlater⟩ := ih
    have hr' : r.Extends r' := Race.extends_counted hs
    have hruns' : (t.moveOn r).Runs := hruns.moveOn hr
    have hage : t.startedAt + r.due - t.startedAt = r.due := Nat.add_sub_cancel_left ..
    have hpass : Step probe (s.amid n (t.moveOn r) now₁)
        (s.amid n (t.moveOn r) (t.startedAt + r.due)) :=
      step_pass hnow₁ hothers (hruns'.sleepsUntil (Nat.le_refl _))
    have hnext : (t.moveOn r).next probe (t.startedAt + r.due - t.startedAt) =
        some (t.moveOn r') := by
      rw [hage, ← Task.moveOn_moveOn hr hr']
      exact Task.next_counted hruns' (Nat.le_refl _) hs
    have hwork : Step probe (s.amid n (t.moveOn r) (t.startedAt + r.due))
        (s.amid n (t.moveOn r') (t.startedAt + r.due)) := step_next hn hd hnext
    refine ⟨hr.trans hr', t.startedAt + r.due, ?_, ?_, .next (.next hlater hpass) hwork⟩
    · exact Nat.add_le_add_left ((hcounts.sound hrace).due_le hs) _
    · rw [hage]
      exact hl

/-! ## Calls -/

/-- Nothing more comes of a task: its race is over, or has broken down, and all it has told was
handled. -/
structure Rests (t : Task) : Prop where
  duty : (∃ report, t.duty = .over report) ∨ t.duty = .broken
  queue : t.queue = []

theorem Rests.duty_ne_race (h : Rests t) : t.duty ≠ .race := by
  rcases h.duty with ⟨report, hover⟩ | hbroken
  · rw [hover]
    exact Duty.noConfusion
  · rw [hbroken]
    exact Duty.noConfusion

/-- Who holds the session and rests has broken down. -/
theorem Sound.broken_of_rests (h : s.Sound probe) (htoken : s.token = some n)
    (ht : s.tasks[n]? = some t) (hrests : Rests t) : t.duty = .broken := by
  rcases hrests.duty with ⟨report, hover⟩ | hbroken
  · obtain ⟨u, hu, hholds⟩ := h.holder n htoken
    rw [ht] at hu
    cases hu
    rw [hover] at hholds
    cases hholds
  · exact hbroken

/-- How a session is between two calls: the race under way is undecided or has broken down, and of
the others everything was handled. -/
structure Quiet (probe : Probe) (s : Session) : Prop where
  sound : s.Sound probe
  rested : ∀ n t, s.tasks[n]? = some t → s.token ≠ some n → Rests t
  racing : ∀ n t, s.tasks[n]? = some t → s.token = some n → Rests t ∨
    t.duty = .race ∧ t.startedAt ≤ s.now ∧ s.now ≤ t.startedAt + t.race.due

theorem Quiet.others (h : s.Quiet probe) (htoken : s.token = some n) :
    ∀ m u, m ≠ n → s.tasks[m]? = some u → u.duty ≠ .race := fun m u hmn hu =>
  (h.rested m u hu (by rw [htoken]; simpa using Ne.symm hmn)).duty_ne_race

/-- The rest of a call once the race is decided. -/
theorem later_ended {target : Duration} {race : Race} {outcome : Outcome} {elapsed : Duration}
    (hn : n < s.tasks.length)
    (hothers : ∀ m u, m ≠ n → s.tasks[m]? = some u → u.duty ≠ .race) (hd : t.duty = .race)
    (hnext : t.next probe (now - t.startedAt) = some (t.decide race outcome elapsed))
    (hle : now ≤ target) :
    Later probe (s.amid n t now)
      ((s.release (race.report outcome elapsed)).amid n
        ((t.decide race outcome elapsed).conclude (race.report outcome elapsed)) target) := by
  have hdecide : Step probe (s.amid n t now) (s.amid n (t.decide race outcome elapsed) now) :=
    step_next hn hd hnext
  have hclosing : Later probe (s.amid n (t.decide race outcome elapsed) now)
      ((s.release (race.report outcome elapsed)).amid n
        ((t.decide race outcome elapsed).conclude (race.report outcome elapsed)) now) :=
    later_closing hn rfl
  have hrest : ((t.decide race outcome elapsed).conclude
      (race.report outcome elapsed)).SleepsUntil target := by
    intro hrace
    cases hrace
  exact .next (hdecide.later.trans hclosing) (step_pass hle hothers hrest)

/-- After the end of its race a session has no undecided race. -/
theorem Quiet.ended {target : Duration} {report : Report} (h : s.Quiet probe)
    (htoken : s.token = some n) (ht : Rests t)
    (hsound : ((s.release report).amid n t target).Sound probe) :
    ((s.release report).amid n t target).Quiet probe := by
  refine ⟨hsound, ?_, ?_⟩
  · intro m u hu _
    have hu' : (s.tasks.set n t)[m]? = some u := hu
    by_cases hmn : n = m
    · subst hmn
      rw [List.getElem?_set_self (by simpa using (List.getElem?_eq_some_iff.1 hu').1)] at hu'
      cases hu'
      exact ht
    · rw [List.getElem?_set_ne hmn] at hu'
      exact h.rested m u hu' (by rw [htoken]; simpa using hmn)
  · intro m u _ hm
    cases hm

/-- The race under way is still undecided, or has broken down. -/
theorem Quiet.goesOn {target : Duration} (h : s.Quiet probe) (htoken : s.token = some n)
    (ht : Rests t ∨ t.duty = .race ∧ t.startedAt ≤ target ∧ target ≤ t.startedAt + t.race.due)
    (hsound : (s.amid n t target).Sound probe) : (s.amid n t target).Quiet probe := by
  refine ⟨hsound, ?_, ?_⟩
  · intro m u hu hm
    have hmn : n ≠ m := by
      rintro rfl
      exact hm htoken
    have hu' : (s.tasks.set n t)[m]? = some u := hu
    rw [List.getElem?_set_ne hmn] at hu'
    exact h.rested m u hu' hm
  · intro m u hu hm
    have hm' : s.token = some m := hm
    rw [htoken] at hm'
    cases hm'
    have hu' : (s.tasks.set n t)[n]? = some u := hu
    rw [List.getElem?_set_self (by simpa using (List.getElem?_eq_some_iff.1 hu').1)] at hu'
    cases hu'
    exact ht

/-- A race that is decided in the course of a call. -/
theorem settle_ended {t₀ : Task} {target : Duration} {race : Race} {outcome : Outcome}
    {elapsed : Duration} (h : s.Quiet probe) (htoken : s.token = some n)
    (hn : n < s.tasks.length) (hlater : Later probe s (s.amid n t₀ now)) (hd : t₀.duty = .race)
    (hnext : t₀.next probe (now - t₀.startedAt) = some (t₀.decide race outcome elapsed))
    (hsame : t₀.decide race outcome elapsed = t.decide race outcome elapsed)
    (hle : now ≤ target) :
    Later probe s (s.settle n t target (some (.ended race outcome elapsed))).1 ∧
      (s.settle n t target (some (.ended race outcome elapsed))).1.Quiet probe := by
  have hrest := later_ended hn (h.others htoken) hd hnext hle
  rw [hsame] at hrest
  have hall : Later probe s (s.settle n t target (some (.ended race outcome elapsed))).1 :=
    hlater.trans hrest
  exact ⟨hall, h.ended htoken ⟨.inl ⟨_, rfl⟩, rfl⟩ (hall.sound h.sound)⟩

/-- A race that breaks down in the course of a call. -/
theorem settle_broken {target : Duration} (h : s.Quiet probe) (htoken : s.token = some n)
    (hn : n < s.tasks.length) (hlater : Later probe s (s.amid n t now)) (hd : t.duty = .race)
    (hnext : t.next probe (now - t.startedAt) = some { t with duty := .broken })
    (hle : now ≤ target) :
    Later probe s (s.settle n t target none).1 ∧ (s.settle n t target none).1.Quiet probe := by
  let u : Task := { t with duty := .broken }
  have hbreak : Step probe (s.amid n t now) (s.amid n u now) := step_next hn hd hnext
  have hdeliver : Later probe (s.amid n u now) (s.amid n u.deliver now) := later_deliver hn
  have hpass : Step probe (s.amid n u.deliver now) (s.amid n u.deliver target) :=
    step_pass hle (h.others htoken) (nomatch ·)
  have hall : Later probe s (s.settle n t target none).1 :=
    ((hlater.next hbreak).trans hdeliver).next hpass
  exact ⟨hall, h.goesOn htoken (.inl ⟨.inr rfl, rfl⟩) (hall.sound h.sound)⟩

/-- Of a race that has broken down nothing more comes. -/
theorem settle_rests {target : Duration} (h : s.Quiet probe) (htoken : s.token = some n)
    (ht : s.tasks[n]? = some t) (hd : t.duty = .broken) (hq : t.queue = []) (hle : s.now ≤ target) :
    Later probe s (s.settle n t target none).1 ∧ (s.settle n t target none).1.Quiet probe := by
  have hsame : { t.deliver with duty := .broken } = t := by
    cases t
    cases hd
    cases hq
    simp [Task.deliver]
  have hpass : Step probe (s.amid n t s.now) (s.amid n t target) :=
    step_pass hle (h.others htoken) fun hrace => by
      rw [hd] at hrace
      cases hrace
  rw [amid_self ht] at hpass
  have hsettle : (s.settle n t target none).1 = s.amid n t target := by
    rw [settle, hsame]
    rfl
  rw [hsettle]
  exact ⟨hpass.later, h.goesOn htoken (.inl ⟨.inr hd, hq⟩) (step_sound h.sound hpass)⟩

/-- The race goes on up to the new instant and is not decided. -/
theorem settle_undecided {target : Duration} {r : Race} (h : s.Quiet probe)
    (htoken : s.token = some n) (hn : n < s.tasks.length) (hd : t.duty = .race)
    (hruns : (t.moveOn r).Runs) (hstart : t.startedAt ≤ target)
    (hlater : Later probe s (s.amid n (t.moveOn r) now)) (hle : now ≤ target)
    (hdue : target ≤ t.startedAt + r.due) :
    Later probe s (s.settle n t target (some (.undecided r))).1 ∧
      (s.settle n t target (some (.undecided r))).1.Quiet probe := by
  have hpass : Step probe (s.amid n (t.moveOn r) now) (s.amid n (t.moveOn r) target) :=
    step_pass hle (h.others htoken) (hruns.sleepsUntil hdue)
  have hall : Later probe s (s.amid n (t.moveOn r).deliver target) :=
    (hlater.next hpass).trans (later_deliver hn)
  exact ⟨hall, h.goesOn htoken (.inr ⟨hd, hstart, hdue⟩) (hall.sound h.sound)⟩

/-- The race goes on and is decided by the step that is due next. -/
theorem settle_decided {target elapsed : Duration} {r race : Race} {outcome : Outcome}
    (h : s.Quiet probe) (htoken : s.token = some n) (hn : n < s.tasks.length) (hd : t.duty = .race)
    (hruns : (t.moveOn r).Runs) (hr : t.race.Extends r)
    (hs : r.step probe = .ended race outcome elapsed)
    (hlater : Later probe s (s.amid n (t.moveOn r) now)) (hnow : now ≤ t.startedAt + r.due)
    (hle : t.startedAt + r.due ≤ target) :
    Later probe s (s.settle n t target (some (.ended race outcome elapsed))).1 ∧
      (s.settle n t target (some (.ended race outcome elapsed))).1.Quiet probe := by
  have hage : t.startedAt + r.due - t.startedAt = r.due := Nat.add_sub_cancel_left ..
  have hpass : Step probe (s.amid n (t.moveOn r) now)
      (s.amid n (t.moveOn r) (t.startedAt + r.due)) :=
    step_pass hnow (h.others htoken) (hruns.sleepsUntil (Nat.le_refl _))
  refine settle_ended h htoken hn (hlater.next hpass) hd ?_
    (Task.decide_moveOn hr (Race.extends_ended hs) outcome elapsed) hle
  show (t.moveOn r).next probe (t.startedAt + r.due - t.startedAt) = _
  rw [hage]
  exact Task.next_ended hruns (Nat.le_refl _) hs

/-- The course of a race that goes on by results, done by steps. -/
theorem settle_advance {target : Duration} {limit : Option Duration} (h : s.Quiet probe)
    (htoken : s.token = some n) (ht : s.tasks[n]? = some t) (hle : s.now ≤ target)
    (hlimit : ∀ l, limit = some l → l = target - t.startedAt + 1)
    (hend : limit = none → t.ending (some (t.race.advance probe limit none)) ≤ target)
    (hd : t.duty = .race) (hstart : t.startedAt ≤ s.now) (hdue : s.now ≤ t.startedAt + t.race.due)
    (hruns : t.Runs) :
    Later probe s (s.settle n t target (some (t.race.advance probe limit none))).1 ∧
      (s.settle n t target (some (t.race.advance probe limit none))).1.Quiet probe := by
  have hn : n < s.tasks.length := (List.getElem?_eq_some_iff.1 ht).1
  obtain ⟨params, candidates, hrace⟩ := (h.sound.tasks t (List.mem_of_getElem? ht)).undecided hd
  obtain ⟨r, hcounts, hstops⟩ := Race.advance_stops probe limit none t.race
  have hbefore : limit.any (· ≤ s.now - t.startedAt) = false := by
    cases hl : limit with
    | none => rfl
    | some l =>
      have hage : s.now - t.startedAt < target - t.startedAt + 1 :=
        Nat.lt_succ_of_le (Nat.sub_le_sub_right hle _)
      simpa [hlimit l hl] using hage
  obtain ⟨hr, now, hnow, hnowl, hlater⟩ :=
    later_counts hn (h.others htoken) hd hruns hrace hdue hbefore hcounts
  rw [amid_self ht] at hlater
  have hruns' : (t.moveOn r).Runs := hruns.moveOn hr
  generalize hcourse : t.race.advance probe limit none = course at hstops hend ⊢
  cases hstops with
  | limit hl =>
    -- Nothing more is due up to the new instant.
    obtain ⟨l, rfl⟩ : ∃ l, limit = some l := by
      cases limit with
      | none => cases hl
      | some l => exact ⟨l, rfl⟩
    have hl' : target - t.startedAt + 1 ≤ r.due := by
      simpa [hlimit l rfl] using hl
    have hnowl' : now - t.startedAt < target - t.startedAt + 1 := by
      simpa [hlimit l rfl] using hnowl
    have hdue' : target ≤ t.startedAt + r.due :=
      Nat.sub_le_iff_le_add'.1 (Nat.le_of_succ_le hl')
    have hle' : now ≤ target := by
      have hsum := Nat.sub_le_iff_le_add'.1 (Nat.le_of_lt_succ hnowl')
      rwa [Nat.add_sub_cancel' (Nat.le_trans hstart hle)] at hsum
    exact settle_undecided h htoken hn hd hruns' (Nat.le_trans hstart hle) hlater hle' hdue'
  | @ended race outcome elapsed hl hs =>
    have helapsed : elapsed = r.due := Race.elapsed_eq_due hs
    have hle' : t.startedAt + r.due ≤ target := by
      cases hlim : limit with
      | none =>
        rw [← helapsed]
        exact hend hlim
      | some l =>
        have hl' : r.due < target - t.startedAt + 1 := by
          simpa [hlim, hlimit l hlim] using hl
        have hsum := Nat.add_le_add_left (Nat.le_of_lt_succ hl') t.startedAt
        rwa [Nat.add_sub_cancel' (Nat.le_trans hstart hle)] at hsum
    exact settle_decided h htoken hn hd hruns' hr hs hlater hnow hle'
  | cancelled _ _ hstop => cases hstop

/-- The course of a race during a call, done by steps. -/
theorem settle_later {target : Duration} {limit : Option Duration} (h : s.Quiet probe)
    (htoken : s.token = some n) (ht : s.tasks[n]? = some t) (hle : s.now ≤ target)
    (hlimit : ∀ l, limit = some l → l = target - t.startedAt + 1)
    (hend : limit = none → t.ending (t.course probe (s.now - t.startedAt) limit) ≤ target) :
    Later probe s (s.settle n t target (t.course probe (s.now - t.startedAt) limit)).1 ∧
      (s.settle n t target (t.course probe (s.now - t.startedAt) limit)).1.Quiet probe := by
  have hn : n < s.tasks.length := (List.getElem?_eq_some_iff.1 ht).1
  have hrefl : Later probe s (s.amid n t s.now) := by
    rw [amid_self ht]
    exact .refl s
  rcases h.racing n t ht htoken with hrests | ⟨hd, hstart, hdue⟩
  · have hbroken := h.sound.broken_of_rests htoken ht hrests
    have hcourse : t.course probe (s.now - t.startedAt) limit = none := by
      simp [Task.course, hbroken]
    rw [hcourse]
    exact settle_rests h htoken ht hbroken hrests.queue hle
  · rcases t.runs_or with h0 | ⟨h0, hc⟩ | ⟨h0, hc, hno⟩ | ⟨h0, hc, hdeadline, hno⟩ | hruns
    · have hcourse : t.course probe (s.now - t.startedAt) limit =
          some (.ended t.race .noCandidates 0) := by
        simp [Task.course, hd, h0]
      rw [hcourse]
      exact settle_ended h htoken hn hrefl hd (by simp [Task.next, h0]) rfl hle
    · have hcourse : t.course probe (s.now - t.startedAt) limit =
          some (.ended t.race .cancelled (s.now - t.startedAt)) := by
        simp [Task.course, hd, h0, hc]
      rw [hcourse]
      exact settle_ended h htoken hn hrefl hd (by simp [Task.next, h0, hc]) rfl hle
    · have hcourse : t.course probe (s.now - t.startedAt) limit = none := by
        simp [Task.course, h0, hc, hno]
      rw [hcourse]
      exact settle_broken h htoken hn hrefl hd (by simp [Task.next, h0, hc, hno]) hle
    · have hcourse : t.course probe (s.now - t.startedAt) limit =
          some (.ended t.race t.race.params.breakdown (s.now - t.startedAt)) := by
        simp [Task.course, hd, h0, hc, hdeadline, hno]
      rw [hcourse]
      exact settle_ended h htoken hn hrefl hd (by simp [Task.next, h0, hc, hdeadline, hno]) rfl hle
    · have hcourse : t.course probe (s.now - t.startedAt) limit =
          some (t.race.advance probe limit none) := by
        simp [Task.course, hd, hruns.nonempty, hruns.uncancelled, hruns.hasDeadline, hruns.hasBound]
      rw [hcourse] at hend ⊢
      exact settle_advance h htoken ht hle hlimit hend hd hstart hdue hruns

theorem Sound.current_cases (h : s.Sound probe) :
    (s.token = none ∧ s.current? = none) ∨
    ∃ n t, s.token = some n ∧ s.tasks[n]? = some t ∧ s.current? = some (n, t) := by
  cases htoken : s.token with
  | none => exact .inl ⟨rfl, by simp [current?, htoken]⟩
  | some n =>
    obtain ⟨t, ht, _⟩ := h.holder n htoken
    exact .inr ⟨n, t, rfl, ht, by simp [current?, htoken, ht]⟩

theorem Quiet.rests (h : s.Quiet probe) (htoken : s.token = none) : ∀ t ∈ s.tasks, Rests t := by
  intro t ht
  obtain ⟨n, hn⟩ := List.mem_iff_getElem?.1 ht
  exact h.rested n t hn (by simp [htoken])

theorem advance_later (h : s.Quiet probe) (span : Duration) :
    Later probe s (s.advance probe span).1 ∧ (s.advance probe span).1.Quiet probe := by
  rcases h.sound.current_cases with ⟨htoken, hcurrent⟩ | ⟨n, t, htoken, ht, hcurrent⟩
  · have hpass : Step probe s { s with now := s.now + span } :=
      .pass (Nat.le_add_right _ _) fun t ht hrace => absurd hrace (h.rests htoken t ht).duty_ne_race
    rw [advance, hcurrent]
    refine ⟨hpass.later, step_sound h.sound hpass, h.rested, ?_⟩
    intro m u _ hm
    have hm' : s.token = some m := hm
    rw [htoken] at hm'
    cases hm'
  · rw [advance, hcurrent]
    exact settle_later h htoken ht (Nat.le_add_right _ _) (fun _ hl => by cases hl; rfl)
      fun hl => by cases hl

/-- A race that nobody interrupts ends or breaks down. -/
theorem course_ends (probe : Probe) (age : Duration) (t : Task) :
    t.course probe age none = none ∨
      ∃ race outcome elapsed, t.course probe age none = some (.ended race outcome elapsed) := by
  simp only [Task.course]
  by_cases hb : t.duty = .broken
  · exact .inl (if_pos hb)
  · rw [if_neg hb]
    rcases t.runs_or with h0 | ⟨h0, hc⟩ | ⟨h0, hc, hno⟩ | ⟨h0, hc, hdeadline, hno⟩ | hruns
    · exact .inr ⟨_, _, _, if_pos h0⟩
    · exact .inr ⟨t.race, .cancelled, age, by simp [h0, hc]⟩
    · exact .inl (by simp [h0, hc, hno])
    · exact .inr ⟨t.race, t.race.params.breakdown, age, by simp [h0, hc, hdeadline, hno]⟩
    · obtain ⟨r, _, hstops⟩ := Race.advance_stops probe none none t.race
      simp only [hruns.nonempty, hruns.uncancelled, hruns.hasDeadline, hruns.hasBound, not_true,
        Bool.false_eq_true, if_false]
      generalize t.race.advance probe none none = course at hstops ⊢
      cases hstops with
      | limit hl => cases hl
      | ended => exact .inr ⟨_, _, _, rfl⟩
      | cancelled => exact .inr ⟨_, _, _, rfl⟩

theorem finish_later (h : s.Quiet probe) :
    Later probe s (s.finish probe).1 ∧ (s.finish probe).1.Quiet probe ∧
      ∀ t ∈ (s.finish probe).1.tasks, Rests t := by
  rcases h.sound.current_cases with ⟨htoken, hcurrent⟩ | ⟨n, t, htoken, ht, hcurrent⟩
  · rw [finish, hcurrent]
    exact ⟨.refl s, h, h.rests htoken⟩
  · have hn : n < s.tasks.length := (List.getElem?_eq_some_iff.1 ht).1
    rw [finish, hcurrent]
    obtain ⟨hlater, hquiet⟩ := settle_later h htoken ht (Nat.le_max_left _ _)
      (fun _ (hl : none = some _) => by cases hl) fun _ => Nat.le_max_right _ _
    refine ⟨hlater, hquiet, ?_⟩
    rcases course_ends probe (s.now - t.startedAt) t with hcourse | ⟨race, outcome, elapsed, hcourse⟩
    · simp only [hcourse] at hquiet ⊢
      intro u hu
      obtain ⟨m, hm⟩ := List.mem_iff_getElem?.1 hu
      by_cases hmn : m = n
      · subst hmn
        have hm' : (s.tasks.set m { t.deliver with duty := .broken })[m]? = some u := hm
        rw [List.getElem?_set_self hn] at hm'
        cases hm'
        exact ⟨.inr rfl, rfl⟩
      · refine hquiet.rested m u hm fun htoken' => hmn ?_
        have hsame : s.token = some m := htoken'
        rw [htoken] at hsame
        exact (Option.some.inj hsame).symm
    · simp only [hcourse] at hquiet ⊢
      exact hquiet.rests rfl

theorem wait_later (h : s.Quiet probe) :
    Later probe s (s.wait probe).1 ∧ (s.wait probe).1.Quiet probe := by
  obtain ⟨hlater, hquiet, _⟩ := finish_later h
  have hcollect : Step probe (s.finish probe).1 { (s.finish probe).1 with handle := none } :=
    .collect
  exact ⟨hlater.next hcollect, step_sound hquiet.sound hcollect, hquiet.rested, hquiet.racing⟩

/-- After a wait no race is undecided, and everything that was told was handled. -/
theorem wait_rests (h : s.Quiet probe) : ∀ t ∈ (s.wait probe).1.tasks, Rests t :=
  (finish_later h).2.2

theorem idle_quiet (probe : Probe) : idle.Quiet probe :=
  ⟨idle_sound probe, by simp [idle], by simp [idle]⟩

theorem Quiet.start {s' : Session} {params : Params} {candidates : List Candidate}
    (h : s.Quiet probe) (hs : s.start probe params candidates = .ok s') : s'.Quiet probe := by
  have hsound : s'.Sound probe := h.sound.start hs
  obtain ⟨hp, rfl⟩ := start_eq_ok hs
  have htoken : s.token = none := by
    rw [← Option.not_isSome_iff_eq_none, h.sound.token_iff]
    exact hp
  have hlast : ∀ m u, (s.tasks ++ [Task.begin probe params candidates s.now s.phase])[m]? = some u →
      m ≠ s.tasks.length → s.tasks[m]? = some u := by
    intro m u hu hm
    have hlt := (List.getElem?_eq_some_iff.1 hu).1
    simp only [List.length_append, List.length_singleton] at hlt
    rwa [List.getElem?_append_left (by omega)] at hu
  refine ⟨hsound, ?_, ?_⟩
  · intro m u hu hm
    refine h.rested m u (hlast m u hu ?_) (by simp [htoken])
    rintro rfl
    exact hm rfl
  · intro m u hu hm
    cases hm
    have hu' : (s.tasks ++ [Task.begin probe params candidates s.now s.phase])[s.tasks.length]? =
        some u := hu
    rw [List.getElem?_concat_length] at hu'
    cases hu'
    exact .inr ⟨rfl, Nat.le_refl _, Nat.le_add_right _ _⟩

theorem Quiet.cancel (h : s.Quiet probe) : s.cancel.1.Quiet probe := by
  have hsound := h.sound.cancel
  rcases cancel_cases s with ⟨n, _, htoken, hc⟩ | ⟨_, hc⟩
  · obtain ⟨t, ht, _⟩ := h.sound.holder n htoken
    have hracing : Rests { t with cancelled := true } ∨ t.duty = .race ∧ t.startedAt ≤ s.now ∧
        s.now ≤ t.startedAt + t.race.due :=
      (h.racing n t ht htoken).imp (fun hrests => ⟨hrests.duty, hrests.queue⟩) id
    have hset : s.cancel.1 = s.amid n { t with cancelled := true } s.now := by
      rw [hc]
      simp [amid, List.modify_eq_set_getElem?, ht]
    rw [hset] at hsound ⊢
    exact h.goesOn htoken hracing hsound
  · rw [hc]
    exact h

theorem Quiet.acknowledge (h : s.Quiet probe) : s.acknowledge.1.Quiet probe := by
  have hsound := h.sound.acknowledge
  rcases acknowledge_cases s with ⟨_, ha⟩ | ⟨_, ha⟩
  · rw [ha] at hsound ⊢
    exact ⟨hsound, h.rested, h.racing⟩
  · rw [ha]
    exact h

/-- What a call does can be done by steps. -/
theorem perform_later (h : s.Quiet probe) (call : Call) :
    Later probe s (s.perform probe call) ∧ (s.perform probe call).Quiet probe := by
  cases call with
  | start params candidates =>
    simp only [perform]
    cases hs : s.start probe params candidates with
    | error e => exact ⟨.refl s, h⟩
    | ok s' => exact ⟨(Step.start hs).later, h.start hs⟩
  | cancel => exact ⟨Step.cancel.later, h.cancel⟩
  | acknowledge => exact ⟨Step.acknowledge.later, h.acknowledge⟩
  | advance span => exact advance_later h span
  | wait => exact wait_later h

/-- Whatever was called, the session has come there by steps. -/
theorem run_later (probe : Probe) (calls : List Call) :
    Later probe idle (run probe calls) ∧ (run probe calls).Quiet probe := by
  have hgen : ∀ (calls : List Call) (s : Session), s.Quiet probe →
      Later probe s (calls.foldl (perform probe) s) ∧
        (calls.foldl (perform probe) s).Quiet probe := by
    intro calls
    induction calls with
    | nil => exact fun s h => ⟨.refl s, h⟩
    | cons call calls ih =>
      intro s h
      obtain ⟨hfirst, hquiet⟩ := perform_later h call
      obtain ⟨hrest, hquiet'⟩ := ih (s.perform probe call) hquiet
      exact ⟨hfirst.trans hrest, hquiet'⟩
  exact hgen calls idle (idle_quiet probe)

end

end Session
end ResolverRace
