import ResolverRace.Proofs.Race.Course
import ResolverRace.Session.Basic

/-!
# Who can win

A property that all candidates of a race have is a property of its winner: whoever waits or is
being tested was among the candidates at the start.

* `Race.Only`, `Course.Only`, `Session.Only` — the property for everybody who can still win.
* `Race.Only.advance` — it is kept along the course of a race.
* `Session.Only.advance`, `Session.Only.wait` — what a session reports has such a winner or none.
-/

namespace ResolverRace
namespace Race

/-- Everybody who can still win has the property. -/
structure Only (P : Candidate → Prop) (r : Race) : Prop where
  waiting : ∀ c ∈ r.waiting, P c
  flights : ∀ f ∈ r.flights, P f.candidate

theorem candidate_of_mem_launchAll {probe : Probe} {params : Params} {now : Duration} {slot : Nat}
    {cs : List Candidate} {f : Flight} (hf : f ∈ launchAll probe params now slot cs) :
    f.candidate ∈ cs := by
  induction cs generalizing slot with
  | nil => cases hf
  | cons c cs ih =>
    rcases List.mem_cons.1 hf with rfl | hf
    · rw [Flight.launch_candidate]
      exact List.mem_cons_self ..
    · exact List.mem_cons_of_mem _ (ih hf)

end Race

/-- Everybody who can still win has the property, and so has the winner. -/
def Course.Only (P : Candidate → Prop) : Course → Prop
  | .undecided r => r.Only P
  | .ended r outcome _ => r.Only P ∧ ∀ c, outcome.winner? = some c → P c

namespace Race

section

variable {P : Candidate → Prop} {probe : Probe} {r r' : Race}

theorem start_only {params : Params} {candidates : List Candidate} (h : ∀ c ∈ candidates, P c) :
    (start probe params candidates).Only P := by
  rw [start, dispatch_eq]
  refine ⟨fun c hc => h c (List.mem_of_mem_drop hc), fun f hf => ?_⟩
  exact h _ (List.mem_of_mem_take (candidate_of_mem_launchAll hf))

theorem Only.refill (h : r.Only P) : (r.refill probe).Only P := by
  rw [Race.refill, dispatch_eq]
  refine ⟨fun c hc => h.waiting c (List.mem_of_mem_drop hc), fun f hf => ?_⟩
  rcases List.mem_append.1 hf with hf | hf
  · exact h.flights f hf
  · exact h.waiting _ (List.mem_of_mem_take (candidate_of_mem_launchAll hf))

theorem Only.count {f : Flight} {rest : List Flight} (h : r.Only P)
    (ht : takeFirst r.flights = some (f, rest)) : (r.count f rest).Only P :=
  ⟨h.waiting, fun g hg => h.flights g ((takeFirst_perm ht).subset (List.mem_cons_of_mem _ hg))⟩

theorem Only.counted (h : r.Only P) (hs : r.step probe = .counted r') : r'.Only P := by
  obtain ⟨f, rest, ht, _, _, rfl⟩ := step_counted hs
  exact (h.count ht).refill

theorem Only.ended {outcome : Outcome} {elapsed : Duration} (h : r.Only P)
    (hs : r.step probe = .ended r' outcome elapsed) :
    Course.Only P (.ended r' outcome elapsed) := by
  cases step_ended hs with
  | exhausted | timedOut => exact ⟨h, fun _ hc => by cases hc⟩
  | @found f _ _ ht _ _ =>
    refine ⟨h.count ht, fun c hc => ?_⟩
    cases hc
    exact h.flights f ((takeFirst_perm ht).subset (List.mem_cons_self ..))

theorem Counts.only {limit : Option Duration} {stopAfter : Option Nat}
    (h : Counts probe limit stopAfter r r') (hr : r.Only P) : r'.Only P := by
  induction h with
  | refl => exact hr
  | next _ _ hs _ ih => exact ih.counted hs

/-- Along its whole course a race keeps to its candidates. -/
theorem Only.advance (h : r.Only P) (limit : Option Duration) (stopAfter : Option Nat) :
    (r.advance probe limit stopAfter).Only P := by
  obtain ⟨s, hcounts, hstops⟩ := advance_stops probe limit stopAfter r
  have hs : s.Only P := hcounts.only h
  generalize r.advance probe limit stopAfter = course at hstops ⊢
  cases hstops with
  | limit => exact hs
  | ended _ hstep => exact hs.ended hstep
  | cancelled _ hstep => exact ⟨hs.counted hstep, fun _ hc => by cases hc⟩

end

end Race

theorem Task.course_only {P : Candidate → Prop} {t : Task} (h : t.race.Only P) (probe : Probe)
    (age : Duration) (limit : Option Duration) :
    ∀ course, t.course probe age limit = some course → course.Only P := by
  intro course hcourse
  simp only [Task.course] at hcourse
  split at hcourse
  · cases hcourse
  · split at hcourse
    · cases hcourse
      exact ⟨h, fun _ hc => by cases hc⟩
    · split at hcourse
      · cases hcourse
        exact ⟨h, fun _ hc => by cases hc⟩
      · split at hcourse
        · cases hcourse
        · split at hcourse
          · cases hcourse
            refine ⟨h, fun c hc => ?_⟩
            rw [Params.breakdown] at hc
            split at hc <;> cases hc
          · cases hcourse
            exact h.advance limit none

/-- A reported winner has the property. -/
def News.Only (P : Candidate → Prop) (news : News) : Prop :=
  ∀ c, news.report.bind (·.outcome.winner?) = some c → P c

namespace Session

/-- Everybody who can still win one of the races has the property. -/
def Only (P : Candidate → Prop) (s : Session) : Prop := ∀ t ∈ s.tasks, t.race.Only P

section

variable {P : Candidate → Prop} {probe : Probe} {s s' : Session}

theorem idle_only : idle.Only P := by
  intro t ht
  cases ht

theorem Only.start {params : Params} {candidates : List Candidate} (h : s.Only P)
    (hc : ∀ c ∈ candidates, P c) (hs : s.start probe params candidates = .ok s') : s'.Only P := by
  rw [Session.start] at hs
  split at hs
  · cases hs
  · cases hs
    intro t ht
    rcases List.mem_append.1 ht with ht | ht
    · exact h t ht
    · rw [List.mem_singleton.1 ht]
      exact Race.start_only hc

theorem Only.cancel (h : s.Only P) : s.cancel.1.Only P := by
  rw [Session.cancel]
  split
  · intro t ht
    obtain ⟨m, hm⟩ := List.mem_iff_getElem?.1 ht
    rw [List.getElem?_modify] at hm
    obtain ⟨u, hu, rfl⟩ := Option.map_eq_some_iff.1 hm
    have hrace : u.race.Only P := h u (List.mem_of_getElem? hu)
    split <;> exact hrace
  · exact h

theorem Only.acknowledge (h : s.Only P) : s.acknowledge.1.Only P := by
  rw [Session.acknowledge]
  split <;> exact h

theorem Only.settle {n : Nat} {t : Task} {now : Duration} {course : Option Course} (h : s.Only P)
    (ht : t.race.Only P) (hcourse : ∀ c, course = some c → c.Only P) :
    (s.settle n t now course).1.Only P ∧ (s.settle n t now course).2.Only P := by
  match course with
  | none =>
    refine ⟨fun u hu => ?_, fun _ hc => by cases hc⟩
    rcases List.mem_or_eq_of_mem_set hu with hu | rfl
    · exact h u hu
    · exact ht
  | some (.undecided race) =>
    refine ⟨fun u hu => ?_, fun _ hc => by cases hc⟩
    rcases List.mem_or_eq_of_mem_set hu with hu | rfl
    · exact h u hu
    · exact hcourse _ rfl
  | some (.ended race outcome elapsed) =>
    obtain ⟨hrace, hwinner⟩ := hcourse _ rfl
    refine ⟨fun u hu => ?_, ?_⟩
    · rcases List.mem_or_eq_of_mem_set hu with hu | rfl
      · exact h u hu
      · exact hrace
    · show ∀ c, (some (race.report outcome elapsed)).bind (·.outcome.winner?) = some c → P c
      exact hwinner

theorem Only.current {n : Nat} {t : Task} (h : s.Only P) (hcurrent : s.current? = some (n, t)) :
    t.race.Only P := by
  rw [current?] at hcurrent
  obtain ⟨m, _, hm⟩ := Option.bind_eq_some_iff.1 hcurrent
  obtain ⟨u, hu, he⟩ := Option.map_eq_some_iff.1 hm
  cases he
  exact h t (List.mem_of_getElem? hu)

theorem Only.advance (h : s.Only P) (span : Duration) :
    (s.advance probe span).1.Only P ∧ (s.advance probe span).2.Only P := by
  rw [Session.advance]
  cases hcurrent : s.current? with
  | none => exact ⟨h, fun _ hc => by cases hc⟩
  | some p =>
    obtain ⟨n, t⟩ := p
    exact h.settle (h.current hcurrent) (Task.course_only (h.current hcurrent) _ _ _)

theorem Only.finish (h : s.Only P) :
    (s.finish probe).1.Only P ∧ (s.finish probe).2.Only P := by
  rw [Session.finish]
  cases hcurrent : s.current? with
  | none => exact ⟨h, fun _ hc => by cases hc⟩
  | some p =>
    obtain ⟨n, t⟩ := p
    exact h.settle (h.current hcurrent) (Task.course_only (h.current hcurrent) _ _ _)

theorem Only.wait (h : s.Only P) :
    (s.wait probe).1.Only P ∧ (s.wait probe).2.1.Only P := ⟨h.finish.1, h.finish.2⟩

end

end Session
end ResolverRace
