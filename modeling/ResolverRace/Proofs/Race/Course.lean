import ResolverRace.Proofs.Race.Invariant

/-!
# The course of a race

`Race.proceed` counts down the results that are outstanding. Here the same course is a relation:
`Counts` takes a race through undisturbed counted results, and `Stops` says how the last of its
states gives way to the end of the course.

* `proceed_stops` — the steps granted are enough: a course is some counted results and then a stop.
* `Decided.ofCourse` — the decided race that a course comes to; `runUnder_stops`,
  `runUnder_broken`.
* `Counts.sound` — the invariant of a race holds all along.
-/

namespace ResolverRace
namespace Race

/-- From one state to another by counting results before the limit, none of which is the one to
stop after. -/
inductive Counts (probe : Probe) (limit : Option Duration) (stopAfter : Option Nat) :
    Race → Race → Prop where
  | refl (r : Race) : Counts probe limit stopAfter r r
  | next {r s t : Race} : Counts probe limit stopAfter r s → limit.any (· ≤ s.due) = false →
      s.step probe = .counted t → stopAfter ≠ some t.tested → Counts probe limit stopAfter r t

/-- How the course of a race comes to its end in the state `r`. -/
inductive Stops (probe : Probe) (limit : Option Duration) (stopAfter : Option Nat) (r : Race) :
    Course → Prop where
  | limit : limit.any (· ≤ r.due) = true → Stops probe limit stopAfter r (.undecided r)
  | ended {r' : Race} {outcome : Outcome} {elapsed : Duration} :
      limit.any (· ≤ r.due) = false → r.step probe = .ended r' outcome elapsed →
      Stops probe limit stopAfter r (.ended r' outcome elapsed)
  | cancelled {r' : Race} : limit.any (· ≤ r.due) = false → r.step probe = .counted r' →
      stopAfter = some r'.tested → Stops probe limit stopAfter r (.ended r' .cancelled r'.clock)

section

variable {probe : Probe} {limit : Option Duration} {stopAfter : Option Nat}

theorem Counts.trans {r s t : Race} (h₁ : Counts probe limit stopAfter r s)
    (h₂ : Counts probe limit stopAfter s t) : Counts probe limit stopAfter r t := by
  induction h₂ with
  | refl => exact h₁
  | next _ hl hs hn ih => exact .next ih hl hs hn

/-- Each counted result is one less to come. -/
theorem outstanding_step {r r' : Race} (hs : r.step probe = .counted r') :
    r'.outstanding + 1 = r.outstanding := by
  obtain ⟨f, rest, ht, _, _, rfl⟩ := step_counted hs
  have hlen := (takeFirst_perm ht).length_eq
  rw [count_refill_eq]
  simp only [outstanding, List.length_append, length_launchAll, List.length_take,
    List.length_drop, List.length_cons] at hlen ⊢
  omega

/-- The steps granted are enough for a course to come to its stop. -/
theorem proceed_stops {steps : Nat} {r : Race} (hfuel : r.outstanding < steps) :
    ∃ s, Counts probe limit stopAfter r s ∧
      Stops probe limit stopAfter s (proceed probe limit stopAfter steps r) := by
  induction steps generalizing r with
  | zero => exact absurd hfuel (Nat.not_lt_zero _)
  | succ steps ih =>
    rw [proceed]
    by_cases hl : limit.any (· ≤ r.due) = true
    · rw [if_pos hl]
      exact ⟨r, .refl r, .limit hl⟩
    · rw [if_neg hl]
      have hl' : limit.any (· ≤ r.due) = false := Bool.eq_false_iff.2 hl
      cases hs : r.step probe with
      | ended r' outcome elapsed => exact ⟨r, .refl r, .ended hl' hs⟩
      | counted r' =>
        simp only
        by_cases hn : stopAfter = some r'.tested
        · rw [if_pos hn]
          exact ⟨r, .refl r, .cancelled hl' hs hn⟩
        · rw [if_neg hn]
          have hout := outstanding_step hs
          obtain ⟨s, hc, hstop⟩ := ih (r := r') (by omega)
          exact ⟨s, (Counts.next (.refl r) hl' hs hn).trans hc, hstop⟩

theorem advance_stops (probe : Probe) (limit : Option Duration) (stopAfter : Option Nat)
    (r : Race) :
    ∃ s, Counts probe limit stopAfter r s ∧
      Stops probe limit stopAfter s (r.advance probe limit stopAfter) :=
  proceed_stops (Nat.lt_succ_self _)

/-- The decided race of a course; what is undecided at the limit is cancelled there. -/
def Decided.ofCourse (limit : Option Duration) : Course → Decided
  | .ended r outcome elapsed => r.conclude outcome elapsed
  | .undecided r => r.conclude .cancelled (limit.getD r.clock)

/-- A race with candidates that is not cancelled before it begins, and whose workers do not break
down, counts results and then stops. -/
theorem runUnder_stops (probe : Probe) {params : Params} {candidates : List Candidate}
    {schedule : Schedule} (hne : candidates ≠ []) (hbefore : schedule.before = false)
    (hbound : params.HasBound) :
    ∃ r course,
      Counts probe schedule.instant schedule.duringReport (start probe params candidates) r ∧
      Stops probe schedule.instant schedule.duringReport r course ∧
      runUnder probe params candidates schedule = .ofCourse schedule.instant course := by
  have hempty : ¬candidates.isEmpty = true := fun h => hne (List.isEmpty_iff.1 h)
  obtain ⟨r, hcounts, hstops⟩ := advance_stops probe schedule.instant schedule.duringReport
    (start probe params candidates)
  refine ⟨r, _, hcounts, hstops, ?_⟩
  rw [runUnder, if_neg hempty, hbefore, if_neg Bool.false_ne_true, if_neg (not_not_intro hbound)]
  rfl

/-- A race with candidates whose workers break down is over at its first instant. -/
theorem runUnder_broken (probe : Probe) {params : Params} {candidates : List Candidate}
    {schedule : Schedule} (hne : candidates ≠ []) (hbefore : schedule.before = false)
    (hbound : ¬params.HasBound) :
    runUnder probe params candidates schedule =
      (idle params candidates).conclude (brokenOutcome params schedule) 0 := by
  have hempty : ¬candidates.isEmpty = true := fun h => hne (List.isEmpty_iff.1 h)
  rw [runUnder, if_neg hempty, hbefore, if_neg Bool.false_ne_true, if_pos hbound]

theorem Counts.sound {params : Params} {candidates : List Candidate} {r s : Race}
    (h : Counts probe limit stopAfter r s) (hr : r.Sound probe params candidates) :
    s.Sound probe params candidates := by
  induction h with
  | refl => exact hr
  | next _ _ hs _ ih => exact step_sound ih hs

end

end Race
end ResolverRace
