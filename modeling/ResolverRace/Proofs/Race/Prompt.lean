import ResolverRace.Proofs.Race.Course
import ResolverRace.Proofs.Race.Greedy

/-!
# The workers of a race are never idle without need

Up to each counted result the tests of a race were started as soon as a worker was free: once a
result is counted its worker takes the next candidate, and until then all of them were busy.

* `Race.Prompt` — the invariant, with `start_prompt` and `step_prompt`.
* `Race.length_flights_le_busy` — whoever is under way beyond an instant is busy then.
-/

namespace ResolverRace
namespace Race

/-- Each test was started as soon as a worker was free for it. -/
structure Prompt (workers : Nat) (r : Race) : Prop where
  greedy : Greedy workers r.dispatched
  /-- The clock stands at the start of the race or at a counted result. -/
  clock : r.clock = 0 ∨ ∃ f ∈ r.counted, f.ends = r.clock

section

variable {probe : Probe} {params : Params} {candidates : List Candidate} {r : Race}

theorem Sound.covers (h : r.Sound probe params candidates) :
    Covers probe params candidates r.dispatched :=
  ⟨h.genuine, h.slots⟩

/-- As long as a candidate waits, every worker is at work. -/
theorem Sound.all_at_work (h : r.Sound probe params candidates)
    (hmore : r.dispatched.length < candidates.length) :
    r.flights.length = params.workers candidates.length := by
  have hin := h.inFlight
  have hlen : r.dispatched.length = r.tested + r.flights.length := by
    simp [dispatched, tested]
  omega

theorem length_flights_le_busy {place : Nat} {now : Duration}
    (hplace : ∀ f ∈ r.flights, f.slot < place) (hnow : ∀ f ∈ r.flights, now < f.ends) :
    r.flights.length ≤ busy r.dispatched place now := by
  rw [dispatched, busy_append, busy_eq_length hplace hnow]
  exact Nat.le_add_left _ _

/-- Once a result is counted, its worker and those of earlier results are free. -/
theorem Sound.busy_le (h : r.Sound probe params candidates) {f : Flight} {rest : List Flight}
    (ht : takeFirst r.flights = some (f, rest)) (place : Nat) :
    busy r.dispatched place f.ends ≤ rest.length := by
  have hperm : r.dispatched.Perm ((r.counted ++ [f]) ++ rest) := (dispatched_count ht).symm
  -- Results come in the order in which tests end, so nothing that was counted ends later.
  have hcounted : busy (r.counted ++ [f]) place f.ends = 0 := by
    refine busy_eq_zero fun g hg => ?_
    rcases List.mem_append.1 hg with hg | hg
    · exact Nat.le_trans (h.passed g hg) (h.clock_le ht)
    · exact Nat.le_of_eq (congrArg _ (List.mem_singleton.1 hg))
  rw [busy_of_perm hperm, busy_append, hcounted, Nat.zero_add]
  exact busy_le_length _ _ _

/-! ## The invariant -/

theorem start_prompt :
    (start probe params candidates).Prompt (params.workers candidates.length) := by
  have hsound : (start probe params candidates).Sound probe params candidates := start_sound
  have hcovers := hsound.covers
  have hstart : ∀ f ∈ (start probe params candidates).dispatched,
      f.started = 0 ∧ f.slot < params.workers candidates.length := by
    intro f hf
    have hslot := hcovers.slot_lt hf
    simp only [start, dispatch_eq, dispatched, List.nil_append] at hf hslot
    refine ⟨(genuine_of_mem_launchAll (List.take_prefix _ _) hf).2, ?_⟩
    rw [length_launchAll, List.length_take] at hslot
    omega
  refine ⟨⟨fun f hf => ?_, fun f hf now hnow => ?_⟩, .inl rfl⟩
  · exact Nat.lt_of_le_of_lt (busy_le_place hcovers.nodup_slots _ _) (hstart f hf).2
  · rw [(hstart f hf).1] at hnow
    exact absurd hnow (Nat.not_lt_zero _)

/-- What is started once a result is counted: the test of the next candidate, if there is one. -/
theorem Sound.launched (h : r.Sound probe params candidates) (now : Duration) :
    launchAll probe params now r.dispatched.length (r.waiting.take 1) = [] ∨
      ∃ g, launchAll probe params now r.dispatched.length (r.waiting.take 1) = [g] ∧
        g.slot = r.dispatched.length ∧ g.started = now ∧
        r.dispatched.length < candidates.length := by
  cases hwaiting : r.waiting with
  | nil => exact .inl rfl
  | cons c waiting =>
    refine .inr ⟨_, rfl, Flight.launch_slot .., Flight.launch_started .., ?_⟩
    have hdrop := h.waiting_eq
    rw [hwaiting] at hdrop
    refine Nat.lt_of_not_le fun hle => ?_
    rw [List.drop_of_length_le hle] at hdrop
    cases hdrop

theorem Prompt.refill {f : Flight} {rest : List Flight}
    (hp : r.Prompt (params.workers candidates.length)) (h : r.Sound probe params candidates)
    (ht : takeFirst r.flights = some (f, rest)) :
    ((r.count f rest).refill probe).Prompt (params.workers candidates.length) := by
  refine ⟨Greedy.of_perm ?_ (h.dispatched_refill ht).symm, ?_⟩
  · rcases h.launched f.ends with hnone | ⟨g, hnew, hslot, hstart, hmore⟩
    · rw [hnone, List.append_nil]
      exact hp.greedy
    · rw [hnew]
      -- Its worker has just become free, and up to now all were busy, because its candidate was
      -- waiting.
      refine hp.greedy.concat (fun x hx => hslot ▸ h.covers.slot_lt hx) ?_ fun now hnow => ?_
      · have hbusy := h.busy_le ht g.slot
        have hlen : rest.length + 1 = r.flights.length := (takeFirst_perm ht).length_eq
        have hin := h.inFlight
        rw [hstart]
        omega
      · rw [← h.all_at_work hmore, hslot]
        rw [hstart] at hnow
        refine length_flights_le_busy
          (fun x hx => h.covers.slot_lt (List.mem_append_right _ hx)) fun x hx => ?_
        exact Nat.lt_of_lt_of_le hnow (takeFirst_le ht x hx)
  · rw [count_refill_eq]
    exact .inr ⟨f, List.mem_append_right _ (List.mem_singleton_self f), rfl⟩

theorem step_prompt {r' : Race} (hp : r.Prompt (params.workers candidates.length))
    (h : r.Sound probe params candidates) (hs : r.step probe = .counted r') :
    r'.Prompt (params.workers candidates.length) := by
  obtain ⟨f, rest, ht, _, _, rfl⟩ := step_counted hs
  exact hp.refill h ht

theorem Counts.prompt {limit : Option Duration} {stopAfter : Option Nat} {s : Race}
    (hc : Counts probe limit stopAfter r s) (hp : r.Prompt (params.workers candidates.length))
    (h : r.Sound probe params candidates) : s.Prompt (params.workers candidates.length) := by
  induction hc with
  | refl => exact hp
  | next hc _ hs _ ih => exact step_prompt ih (hc.sound h) hs

end

end Race
end ResolverRace
