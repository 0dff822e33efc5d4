import ResolverRace.Proofs.Service.Arranged
import ResolverRace.Proofs.Service.Deeds
import ResolverRace.Proofs.Session.Calls

/-!
# Operations are runs of steps

What is asked of a service one operation after another can be done by steps. What takes time does at
once what tasks, handlers and time do step by step; the winner that it records at the end is the only
one that a task records on the way.

* `run_of_later` — steps of the session are steps of the service.
* `settled?_settle` — what passing time settles is what it reports.
* `run_serve`, `run_serveAll` — every operation, and every sequence of operations.
-/

namespace ResolverRace

namespace Tracked

/-- Records one winner after another. -/
def recordAll (t : Tracked) (as : List Address) : Tracked :=
  as.foldl (fun t a => (t.recordSuccess a).1) t

/-- What is recorded does not depend on the session. -/
theorem recordAll_at (t : Tracked) (as : List Address) (session : Session) :
    ({ t with session := session } : Tracked).recordAll as =
      { t.recordAll as with session := session } := by
  induction as generalizing t with
  | nil => rfl
  | cons a as ih => exact ih (t.recordSuccess a).1

theorem recordAll_append (t : Tracked) (as bs : List Address) :
    t.recordAll (as ++ bs) = (t.recordAll as).recordAll bs := List.foldl_append

theorem recordWinner_eq_recordAll (t : Tracked) (report : Option Report) :
    t.recordWinner report = t.recordAll (report.bind Report.winner?).toList := by
  rw [Service.recordWinner_eq]
  cases report.bind Report.winner? <;> rfl

end Tracked

namespace Session

variable {probe : Probe} {s : Session}

/-- Where a race is at `n` that has settled nothing, passing time settles what it reports. -/
theorem settled?_settle {n : Nat} {t : Task} (ht : s.tasks[n]? = some t)
    (hd : t.duty.settled? = none) (now : Duration) (course : Option Course) :
    (∀ m, m ≠ n → (s.settle n t now course).1.settled? m = s.settled? m) ∧
      s.settled? n = none ∧
      (s.settle n t now course).1.settled? n = (s.settle n t now course).2.report := by
  have hn : n < s.tasks.length := (List.getElem?_eq_some_iff.1 ht).1
  have hbefore : s.settled? n = none := by
    rw [settled?, ht, Option.bind_some, hd]
  cases course with
  | none =>
    refine ⟨fun m hm => ?_, hbefore, ?_⟩
    · simp only [settle, settled?, List.getElem?_set_ne hm.symm]
    · simp only [settle, settled?, List.getElem?_set_self hn, Option.bind_some]
      rfl
  | some course =>
    cases course with
    | undecided race =>
      refine ⟨fun m hm => ?_, hbefore, ?_⟩
      · simp only [settle, settled?, List.getElem?_set_ne hm.symm]
      · simp only [settle, settled?, List.getElem?_set_self hn, Option.bind_some]
        exact hd
    | ended race outcome elapsed =>
      refine ⟨fun m hm => ?_, hbefore, ?_⟩
      · simp only [settle, settled?, release, List.getElem?_set_ne hm.symm]
      · simp only [settle, settled?, release, List.getElem?_set_self hn, Option.bind_some]
        rfl

/-- What is settled when time passes: of one race at most, and what is reported. -/
def Reports (s s' : Session) (news : News) : Prop :=
  ∃ n, (∀ m, m ≠ n → s'.settled? m = s.settled? m) ∧
    ((s.settled? n = none ∧ s'.settled? n = news.report) ∨
      (s'.settled? n = s.settled? n ∧ news.report = none))

theorem Quiet.reports_settle (h : s.Quiet probe) {n : Nat} {t : Task} (htoken : s.token = some n)
    (ht : s.tasks[n]? = some t) (now : Duration) (course : Option Course) :
    s.Reports (s.settle n t now course).1 (s.settle n t now course).2 := by
  have hd : t.duty.settled? = none := by
    rcases h.racing n t ht htoken with hrests | ⟨hrace, _⟩
    · rw [h.sound.broken_of_rests htoken ht hrests]
      rfl
    · rw [hrace]
      rfl
  obtain ⟨hothers, hbefore, hafter⟩ := settled?_settle ht hd now course
  exact ⟨n, hothers, .inl ⟨hbefore, hafter⟩⟩

theorem reports_nothing {s' : Session} (h : s'.tasks = s.tasks) : s.Reports s' .none := by
  have hsame : ∀ m, s'.settled? m = s.settled? m := by
    intro m
    rw [settled?, settled?, h]
  exact ⟨0, fun m _ => hsame m, .inr ⟨hsame 0, rfl⟩⟩

theorem Quiet.reports_advance (h : s.Quiet probe) (span : Duration) :
    s.Reports (s.advance probe span).1 (s.advance probe span).2 := by
  rcases h.sound.current_cases with ⟨_, hcurrent⟩ | ⟨n, t, htoken, ht, hcurrent⟩
  · rw [advance, hcurrent]
    exact reports_nothing rfl
  · rw [advance, hcurrent]
    exact h.reports_settle htoken ht _ _

theorem Quiet.reports_wait (h : s.Quiet probe) :
    s.Reports (s.wait probe).1 (s.wait probe).2.1 := by
  rw [wait, finish]
  rcases h.sound.current_cases with ⟨_, hcurrent⟩ | ⟨n, t, htoken, ht, hcurrent⟩
  · rw [hcurrent]
    exact reports_nothing rfl
  · rw [hcurrent]
    exact h.reports_settle htoken ht _ _

end Session

namespace Service

section

variable {probe : Probe} {s s' : Service} {deeds : List Deed}

/-! ## Steps of the session -/

/-- A step of the session is a step of the service, which records no one but the winner that its deed
names. -/
theorem step_of_session {x : Session} (h : Session.Step probe s.session x) :
    ∃ d, Step probe s d
      { s with toTracked := { s.toTracked.recordAll d.won?.toList with session := x } } := by
  cases h with
  | start h => exact ⟨.other, .begin h⟩
  | cancel => exact ⟨.other, .cancel⟩
  | acknowledge => exact ⟨.other, .acknowledge⟩
  | @work n x h =>
    have hwork : s.toTracked.work probe n =
        some { s.toTracked.recordWinner (s.session.recording? n) with session := x } := by
      rw [Tracked.work, h]
      rfl
    have hwon : (s.deed n).won? = (s.session.recording? n).bind Report.winner? := by
      rw [deed_eq]
      cases (s.session.recording? n).bind Report.winner? <;> rfl
    refine ⟨s.deed n, ?_⟩
    rw [hwon, ← Tracked.recordWinner_eq_recordAll]
    exact .work hwork
  | deliver h => exact ⟨.other, .deliver h⟩
  | pass hle hsleep => exact ⟨.other, .pass hle hsleep⟩
  | collect => exact ⟨.other, .collect⟩

theorem run_of_later {x : Session} (h : Session.Later probe s.session x) :
    ∃ deeds, Run probe s deeds
      { s with toTracked := { s.toTracked.recordAll (wins deeds) with session := x } } := by
  induction h with
  | refl => exact ⟨[], .refl⟩
  | @next y z _ hstep ih =>
    obtain ⟨deeds, hrun⟩ := ih
    obtain ⟨d, hlast⟩ := step_of_session
      (s := { s with toTracked := { s.toTracked.recordAll (wins deeds) with session := y } }) hstep
    refine ⟨deeds ++ [d], ?_⟩
    rw [wins, filterMap_concat, Tracked.recordAll_append]
    rw [Tracked.recordAll_at (s.toTracked.recordAll (wins deeds)) d.won?.toList y] at hlast
    exact .next hrun hlast

/-! ## What takes time -/

theorem wins_eq_winsOf {n : Nat} (h : ∀ m, m ≠ n → winsOf m deeds = []) :
    wins deeds = winsOf n deeds := by
  refine List.filterMap_congr fun d hd => ?_
  cases d with
  | won m a =>
    by_cases hm : m = n
    · simp [Deed.won?, Deed.wonBy?, hm]
    · have hin : a ∈ winsOf m deeds :=
        List.mem_filterMap.2 ⟨.won m a, hd, by simp [Deed.wonBy?]⟩
      rw [h m hm] at hin
      cases hin
  | went | reported | other => rfl

/-- The winners that are recorded while time passes are those that are reported. -/
theorem Run.wins_eq {news : News} (h : Run probe s deeds s')
    (hreports : s.session.Reports s'.session news) :
    wins deeds = (news.report.bind Report.winner?).toList := by
  obtain ⟨n, hothers, hself⟩ := hreports
  have hkept : ∀ m, s'.session.settled? m = s.session.settled? m → winsOf m deeds = [] := by
    intro m hm
    have hcount := h.recorded m
    rw [Session.recorded?_congr hm] at hcount
    exact List.append_cancel_left (hcount.trans (List.append_nil _).symm)
  rw [wins_eq_winsOf fun m hm => hkept m (hothers m hm)]
  rcases hself with ⟨hnone, hsome⟩ | ⟨hsame, hreport⟩
  · have hcount := h.recorded n
    rw [Session.recorded?, Session.recorded?, hnone, hsome] at hcount
    exact hcount
  · rw [hkept n hsame, hreport]
    rfl

theorem run_settle {x : Session} {news : News} (h : Session.Later probe s.session x)
    (hreports : s.session.Reports x news) :
    ∃ deeds, Run probe s deeds { s with toTracked := s.toTracked.settle x news } := by
  obtain ⟨deeds, hrun⟩ := run_of_later h
  have hwins : wins deeds = (news.report.bind Report.winner?).toList := hrun.wins_eq hreports
  rw [hwins, ← Tracked.recordWinner_eq_recordAll] at hrun
  exact ⟨deeds, hrun⟩

/-! ## Operations -/

theorem step_of_arranges (h : s.Arranges s') : Step probe s .other s' := by
  obtain ⟨⟨session, standing, store⟩, defaults, catalogue, source, pool⟩ := s'
  have hsession : session = s.session := h.session
  have hstanding : standing = s.standing := h.standing
  have hdefaults : defaults = s.defaults := h.defaults
  subst hsession hstanding hdefaults
  exact .arrange catalogue source pool store

theorem run_serve (h : s.session.Quiet probe) (o : Operation) :
    (∃ deeds, Run probe s deeds (s.serve probe o)) ∧ (s.serve probe o).session.Quiet probe := by
  cases harranges : o.arranges with
  | true =>
    have ha := arranges_serve probe s harranges
    exact ⟨⟨[.other], (step_of_arranges ha).run⟩, ha.session ▸ h⟩
  | false =>
    cases o with
    | reload | selectSource | upsertList | removeList | addEntry | removeEntry | preview =>
      cases harranges
    | notify a worked =>
      exact ⟨⟨[.reported a worked], (Step.report a worked).run⟩, by cases worked <;> exact h⟩
    | start params =>
      have hpromote : Step probe s .other { s with pool := s.favoured } :=
        .arrange s.catalogue s.source s.favoured s.store
      simp only [serve, start]
      split
      · rename_i session hstart
        have hbegin : Step probe { s with pool := s.favoured } .other
            { s with pool := s.favoured, session := session } := .begin hstart
        exact ⟨⟨[.other, .other], .next hpromote.run hbegin⟩, h.start hstart⟩
      · exact ⟨⟨[.other], hpromote.run⟩, h⟩
    | cancel => exact ⟨⟨[.other], Step.cancel.run⟩, h.cancel⟩
    | acknowledge => exact ⟨⟨[.other], Step.acknowledge.run⟩, h.acknowledge⟩
    | advance span =>
      obtain ⟨hlater, hquiet⟩ := Session.advance_later h span
      exact ⟨run_settle hlater (h.reports_advance span), hquiet⟩
    | wait =>
      obtain ⟨hlater, hquiet⟩ := Session.wait_later h
      exact ⟨run_settle hlater h.reports_wait, hquiet⟩

theorem run_serveAll (h : s.session.Quiet probe) (operations : List Operation) :
    (∃ deeds, Run probe s deeds (s.serveAll probe operations)) ∧
      (s.serveAll probe operations).session.Quiet probe := by
  induction operations generalizing s with
  | nil => exact ⟨⟨[], .refl⟩, h⟩
  | cons o operations ih =>
    obtain ⟨⟨deeds, hrun⟩, hquiet⟩ := run_serve h o
    obtain ⟨⟨more, hrest⟩, hquiet'⟩ := ih hquiet
    exact ⟨⟨deeds ++ more, hrun.trans hrest⟩, hquiet'⟩

end

end Service
end ResolverRace
