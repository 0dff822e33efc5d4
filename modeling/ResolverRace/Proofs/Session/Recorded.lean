import ResolverRace.Proofs.Session.Invariant

/-!
# When a winner has been recorded

The task of a race has recorded the winner, if there is one, once its next duty is to let go of the
session or anything after that. Nobody sees that a race was won before: the session shows it from
the moment at which the task lets go, and the events are sent after that.

* `Session.recorded?` — the winner that a task has recorded, and what each step leaves of it.
* `Session.SeenWon` — the session or an event shows that a race was won.
* `Session.Latest` — a session shows the race that was started last.
* `recorded_of_seenWon` — what is seen has been recorded.
-/

namespace ResolverRace

/-- The address of the winner, if the race was won. -/
def Report.winner? (report : Report) : Option Address := report.outcome.winner?.map (·.address)

/-- The report of a race whose winner has been recorded, if there is one. -/
def Duty.settled? : Duty → Option Report
  | .race | .broken | .record _ => none
  | .release report | .tellPhase report | .tellEnd report | .over report => some report

/-- The event tells that a race was won. -/
def Event.tellsWin : Event → Bool
  | .changed _ new => new = .succeeded
  | .finished outcome .. => outcome.isFound
  | .progress _ => false

theorem Outcome.isFound_iff {outcome : Outcome} :
    outcome.isFound = true ↔ Phase.ofOutcome outcome = .succeeded := by
  cases outcome <;> simp [isFound, Phase.ofOutcome]

theorem Report.winner?_isSome {report : Report} :
    report.winner?.isSome = report.outcome.isFound := by
  rw [winner?]
  cases report.outcome <;> rfl

theorem Duty.report?_of_settled {duty : Duty} {report : Report} (h : duty.settled? = some report) :
    duty.report? = some report := by
  cases duty with
  | race | broken | record => cases h
  | release | tellPhase | tellEnd | «over» => exact h

namespace Session

/-- The report of the race with the number `n`, once the winner has been recorded. -/
def settled? (s : Session) (n : Nat) : Option Report := s.tasks[n]?.bind (·.duty.settled?)

/-- The winner of the race with the number `n`, once the race is decided. -/
def winner? (s : Session) (n : Nat) : Option Address :=
  (s.tasks[n]?.bind (·.duty.report?)).bind Report.winner?

/-- The winner of the race with the number `n`, once it has been recorded. -/
def recorded? (s : Session) (n : Nat) : Option Address := (s.settled? n).bind Report.winner?

/-- It can be seen that the race with the number `n` was won: it is the one that was started last and
the session is in the phase that follows a win, or an event was sent that tells so. -/
def SeenWon (s : Session) (n : Nat) : Prop :=
  (s.phase = .succeeded ∧ n + 1 = s.tasks.length) ∨
    ∃ t, s.tasks[n]? = some t ∧ ∃ e ∈ t.told, e.tellsWin = true

/-- The session shows the race that was started last. -/
structure Latest (s : Session) : Prop where
  token : ∀ n, s.token = some n → n + 1 = s.tasks.length
  succeeded : s.phase = .succeeded → ∃ n a, n + 1 = s.tasks.length ∧ s.recorded? n = some a

theorem winner?_of_recorded {s : Session} {n : Nat} {a : Address} (h : s.recorded? n = some a) :
    s.winner? n = some a := by
  obtain ⟨report, hsettled, hwinner⟩ := Option.bind_eq_some_iff.1 h
  obtain ⟨t, ht, hduty⟩ := Option.bind_eq_some_iff.1 hsettled
  rw [winner?, ht, Option.bind_some, Duty.report?_of_settled hduty]
  exact hwinner

theorem lt_of_recorded {s : Session} {n : Nat} {a : Address} (h : s.recorded? n = some a) :
    n < s.tasks.length := by
  obtain ⟨_, hsettled, _⟩ := Option.bind_eq_some_iff.1 h
  obtain ⟨t, ht, _⟩ := Option.bind_eq_some_iff.1 hsettled
  exact (List.getElem?_eq_some_iff.1 ht).1

section

variable {probe : Probe} {s s' : Session} {n : Nat}

/-! ## What each step leaves -/

theorem settled?_congr (h : s'.tasks[n]?.map (·.duty) = s.tasks[n]?.map (·.duty)) :
    s'.settled? n = s.settled? n := by
  have hbind (u : Session) : u.settled? n = (u.tasks[n]?.map (·.duty)).bind Duty.settled? := by
    rw [settled?]
    cases u.tasks[n]? <;> rfl
  rw [hbind, hbind, h]

theorem duty_set {tasks : List Task} {m : Nat} {t t' : Task} (ht : tasks[m]? = some t)
    (hduty : t'.duty = t.duty) (n : Nat) :
    (tasks.set m t')[n]?.map (·.duty) = tasks[n]?.map (·.duty) := by
  have hm : m < tasks.length := (List.getElem?_eq_some_iff.1 ht).1
  by_cases hmn : m = n
  · subst hmn
    rw [List.getElem?_set_self hm, ht, Option.map_some, Option.map_some, hduty]
  · rw [List.getElem?_set_ne hmn]

theorem settled?_start {params : Params} {candidates : List Candidate}
    (h : s.start probe params candidates = .ok s') (n : Nat) : s'.settled? n = s.settled? n := by
  obtain ⟨_, rfl⟩ := start_eq_ok h
  simp only [settled?]
  rcases Nat.lt_trichotomy n s.tasks.length with hn | rfl | hn
  · rw [List.getElem?_append_left hn]
  · -- The new task is at the place behind all others, and has decided nothing yet.
    rw [List.getElem?_concat_length, List.getElem?_eq_none (Nat.le_refl _)]
    rfl
  · have hout : s.tasks.length ≤ n := Nat.le_of_lt hn
    rw [List.getElem?_append_right hout, List.getElem?_eq_none hout]
    have hlate : 1 ≤ n - s.tasks.length := Nat.sub_pos_of_lt hn
    rw [List.getElem?_eq_none (by simpa using hlate)]

theorem settled?_cancel (s : Session) (n : Nat) : s.cancel.1.settled? n = s.settled? n := by
  rcases cancel_cases s with ⟨m, _, _, hc⟩ | ⟨_, hc⟩
  · rw [hc]
    refine settled?_congr ?_
    show (s.tasks.modify m _)[n]?.map (·.duty) = _
    rw [List.getElem?_modify]
    cases s.tasks[n]? with
    | none => rfl
    | some t =>
      refine congrArg some ?_
      dsimp only
      split <;> rfl
  · rw [hc]

theorem settled?_acknowledge (s : Session) (n : Nat) :
    s.acknowledge.1.settled? n = s.settled? n := by
  rcases acknowledge_cases s with ⟨_, ha⟩ | ⟨_, ha⟩
  · rw [ha]
    rfl
  · rw [ha]

theorem settled?_deliver {m : Nat} (h : s.deliver m = some s') (n : Nat) :
    s'.settled? n = s.settled? n := by
  obtain ⟨t, t', ht, hq, rfl⟩ := deliver_eq_some h
  exact settled?_congr (duty_set ht (handleOne_duty hq) n)

/-- A task that goes on leaves the others, and settles its own report when it records. -/
theorem settled?_work {m : Nat} (h : s.work probe m = some s') :
    (∀ n, n ≠ m → s'.settled? n = s.settled? n) ∧
    ((∃ t report, s.tasks[m]? = some t ∧ t.duty = .record report ∧ s.settled? m = none ∧
        s'.settled? m = some report) ∨
      ((∀ t report, s.tasks[m]? = some t → t.duty ≠ .record report) ∧
        s'.settled? m = s.settled? m)) := by
  obtain ⟨t, t', ht, hw, rfl⟩ := work_eq_some h
  have hm : m < s.tasks.length := (List.getElem?_eq_some_iff.1 ht).1
  have htasks : ((s.letGo t.duty).put m t').tasks = s.tasks.set m t' := by
    cases t.duty <;> rfl
  have hself : ((s.letGo t.duty).put m t').settled? m = t'.duty.settled? := by
    rw [settled?, htasks, List.getElem?_set_self hm]
    rfl
  have hbefore : s.settled? m = t.duty.settled? := by
    rw [settled?, ht]
    rfl
  refine ⟨fun n hn => ?_, ?_⟩
  · rw [settled?, htasks, List.getElem?_set_ne hn.symm]
    rfl
  · rw [hself, hbefore]
    simp only [Task.work] at hw
    split at hw
    · rename_i hd
      refine .inr ⟨fun u report hu hrecord => ?_, ?_⟩
      · rw [ht] at hu
        cases hu
        rw [hd] at hrecord
        cases hrecord
      · rw [hd]
        cases Task.goes_of_next hw with
        | counted =>
          show t.duty.settled? = _
          rw [hd]
        | noCandidates | cancelled | breaks | deserted | ended => rfl
    · rename_i report hd
      cases hw
      exact .inl ⟨t, report, ht, hd, by rw [hd]; rfl, rfl⟩
    all_goals
      rename_i report hd
      refine .inr ⟨fun u report' hu hrecord => ?_, ?_⟩
      · rw [ht] at hu
        cases hu
        rw [hd] at hrecord
        cases hrecord
      · cases hw <;> (rw [hd]; rfl)

theorem recorded?_congr (h : s'.settled? n = s.settled? n) : s'.recorded? n = s.recorded? n := by
  rw [recorded?, recorded?, h]

/-! ## What a session shows -/

theorem idle_latest : idle.Latest := by
  refine ⟨fun n hn => ?_, fun hp => ?_⟩
  · cases hn
  · cases hp

theorem Latest.frame (h : s.Latest) (hlength : s'.tasks.length = s.tasks.length)
    (htoken : s'.token = s.token) (hphase : s'.phase = s.phase)
    (hrecorded : ∀ n a, s.recorded? n = some a → s'.recorded? n = some a) : s'.Latest := by
  refine ⟨fun n hn => ?_, fun hp => ?_⟩
  · rw [hlength]
    exact h.token n (htoken ▸ hn)
  · obtain ⟨n, a, hlast, ha⟩ := h.succeeded (hphase ▸ hp)
    exact ⟨n, a, hlength ▸ hlast, hrecorded n a ha⟩

theorem latest_of_start {params : Params} {candidates : List Candidate}
    (hs : s.start probe params candidates = .ok s') : s'.Latest := by
  obtain ⟨_, rfl⟩ := start_eq_ok hs
  refine ⟨fun n hn => ?_, fun hp => by cases hp⟩
  cases hn
  simp

theorem Latest.cancel (h : s.Latest) : s.cancel.1.Latest := by
  have hrecorded : ∀ n a, s.recorded? n = some a → s.cancel.1.recorded? n = some a := by
    intro n a ha
    rw [recorded?_congr (settled?_cancel s n)]
    exact ha
  rcases cancel_cases s with ⟨n, _, _, hc⟩ | ⟨_, hc⟩
  · rw [hc] at hrecorded ⊢
    exact h.frame (List.length_modify ..) rfl rfl hrecorded
  · rw [hc]
    exact h

theorem Latest.acknowledge (h : s.Latest) : s.acknowledge.1.Latest := by
  rcases acknowledge_cases s with ⟨_, ha⟩ | ⟨_, ha⟩
  · rw [ha]
    exact ⟨h.token, fun hp => by cases hp⟩
  · rw [ha]
    exact h

theorem Latest.deliver (h : s.Latest) {m : Nat} (hs : s.deliver m = some s') : s'.Latest := by
  have hrecorded : ∀ n a, s.recorded? n = some a → s'.recorded? n = some a := by
    intro n a ha
    rw [recorded?_congr (settled?_deliver hs n)]
    exact ha
  obtain ⟨t, t', _, _, rfl⟩ := deliver_eq_some hs
  exact h.frame (List.length_set ..) rfl rfl hrecorded

theorem recorded_work {m : Nat} {a : Address} (hs : s.work probe m = some s')
    (ha : s.recorded? n = some a) : s'.recorded? n = some a := by
  obtain ⟨hothers, hself⟩ := settled?_work hs
  by_cases hnm : n = m
  · subst hnm
    rcases hself with ⟨_, _, _, _, hnone, _⟩ | ⟨_, hsame⟩
    · rw [recorded?, hnone] at ha
      cases ha
    · rw [recorded?_congr hsame]
      exact ha
  · rw [recorded?_congr (hothers n hnm)]
    exact ha

/-- Only the task of the race that was started last lets go of the session, and what it shows then
has been recorded. -/
theorem Latest.work (h : s.Latest) (hsound : s.Sound probe) {m : Nat}
    (hs : s.work probe m = some s') : s'.Latest := by
  have hrecorded : ∀ n a, s.recorded? n = some a → s'.recorded? n = some a :=
    fun n a ha => recorded_work hs ha
  obtain ⟨t, t', ht, hw, rfl⟩ := work_eq_some hs
  cases hd : t.duty with
  | release report =>
    have htoken : s.token = some m := hsound.held m t ht (by rw [hd]; rfl)
    have hlast : m + 1 = s.tasks.length := h.token m htoken
    refine ⟨fun n hn => ?_, fun hp => ?_⟩
    · cases hn
    · rw [hd] at hrecorded
      have hwon : report.winner?.isSome = true := by
        rw [Report.winner?_isSome]
        exact Outcome.isFound_iff.2 hp
      obtain ⟨a, ha⟩ := Option.isSome_iff_exists.1 hwon
      refine ⟨m, a, ?_, hrecorded m a ?_⟩
      · rw [hlast]
        exact (List.length_set ..).symm
      · rw [recorded?, settled?, ht, Option.bind_some, hd]
        exact ha
  | race | broken | record | tellPhase | tellEnd | «over» =>
    rw [hd] at hrecorded
    exact h.frame (List.length_set ..) rfl rfl hrecorded

/-- The events of a race tell of a win only after the winner has been recorded. -/
theorem settled_of_tellsWin {t : Task} {e : Event} (h : t.Sound probe) (he : e ∈ t.told)
    (htells : e.tellsWin = true) :
    ∃ report, t.duty.settled? = some report ∧ report.outcome.isFound = true := by
  rw [h.told_eq] at he
  rcases List.mem_cons.1 he with rfl | he
  · cases htells
  rcases List.mem_append.1 he with he | he
  · obtain ⟨_, _, rfl⟩ := List.mem_map.1 he
    cases htells
  · cases hd : t.duty with
    | race | broken | record | release | tellPhase =>
      rw [hd] at he
      cases he
    | tellEnd report =>
      rw [hd] at he
      rw [List.mem_singleton.1 he] at htells
      exact ⟨report, rfl, Outcome.isFound_iff.2 (of_decide_eq_true htells)⟩
    | «over» report =>
      rw [hd] at he
      refine ⟨report, rfl, ?_⟩
      rcases List.mem_cons.1 he with rfl | he
      · exact Outcome.isFound_iff.2 (of_decide_eq_true htells)
      · rw [List.mem_singleton.1 he] at htells
        exact htells

/-- Whatever shows that a race was won, its winner has been recorded. -/
theorem recorded_of_seenWon (hsound : s.Sound probe) (h : s.Latest) (hseen : s.SeenWon n) :
    ∃ a, s.recorded? n = some a := by
  rcases hseen with ⟨hphase, hlast⟩ | ⟨t, ht, e, he, htells⟩
  · obtain ⟨m, a, hm, ha⟩ := h.succeeded hphase
    obtain rfl : n = m := Nat.succ.inj (hlast.trans hm.symm)
    exact ⟨a, ha⟩
  · obtain ⟨report, hsettled, hfound⟩ :=
      settled_of_tellsWin (hsound.tasks t (List.mem_of_getElem? ht)) he htells
    rw [← Report.winner?_isSome] at hfound
    obtain ⟨a, ha⟩ := Option.isSome_iff_exists.1 hfound
    refine ⟨a, ?_⟩
    rw [recorded?, settled?, ht, Option.bind_some, hsettled]
    exact ha

end

end Session
end ResolverRace
