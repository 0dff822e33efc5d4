import ResolverRace.Proofs.Race.Flight

/-!
# What holds throughout a race

`Race.Sound` is true of a race from its first instant until it is decided: the tests started so far
are those of the first candidates, the counted results are failures from before the deadline, the
clock stands between the counted results and those to come, and as many tests are under way as
there are workers and candidates for them.

* `step_cases`, `step_counted`, `step_ended` — everything a step can do.
* `start_sound`, `step_sound` — the invariant at the start and after a counted result.
-/

namespace ResolverRace
namespace Race

structure Sound (probe : Probe) (params : Params) (candidates : List Candidate) (r : Race) :
    Prop where
  params_eq : r.params = params
  total_eq : r.total = candidates.length
  genuine : ∀ f ∈ r.dispatched, f.Genuine probe params candidates
  /-- Each of the first places was taken once. -/
  slots : (r.dispatched.map (·.slot)).Perm (List.range r.dispatched.length)
  waiting_eq : r.waiting = candidates.drop r.dispatched.length
  dispatched_le : r.dispatched.length ≤ candidates.length
  inFlight : r.flights.length =
    min (params.workers candidates.length) (candidates.length - r.tested)
  failed : ∀ f ∈ r.counted, f.response.isSuccess = false
  passed : ∀ f ∈ r.counted, f.ends ≤ r.clock
  coming : ∀ f ∈ r.flights, r.clock ≤ f.ends
  inTime : r.counted ≠ [] → r.clock < params.sessionTimeout

/-- Everything a step can do: there is nobody left, the deadline comes first, or a result does. -/
theorem step_cases (probe : Probe) (r : Race) :
    (r.flights = [] ∧ r.step probe = .ended r .exhausted r.clock) ∨
    ∃ f rest, takeFirst r.flights = some (f, rest) ∧
      ((r.params.sessionTimeout ≤ f.ends ∧
          r.step probe = .ended r .timedOut r.params.sessionTimeout) ∨
        (f.ends < r.params.sessionTimeout ∧ ∃ latency, f.response = .success latency ∧
          r.step probe = .ended (r.count f rest) (.found f.candidate latency) f.ends) ∨
        (f.ends < r.params.sessionTimeout ∧ f.response.isSuccess = false ∧
          r.step probe = .counted ((r.count f rest).refill probe))) := by
  cases ht : takeFirst r.flights with
  | none => exact .inl ⟨takeFirst_eq_none.1 ht, by simp [step, ht]⟩
  | some p =>
    obtain ⟨f, rest⟩ := p
    refine .inr ⟨f, rest, rfl, ?_⟩
    by_cases hd : r.params.sessionTimeout ≤ f.ends
    · exact .inl ⟨hd, by simp [step, ht, hd]⟩
    · have hlt : f.ends < r.params.sessionTimeout := Nat.lt_of_not_le hd
      cases hf : f.response with
      | success latency => exact .inr (.inl ⟨hlt, latency, rfl, by simp [step, ht, hd, hf]⟩)
      | failure reason => exact .inr (.inr ⟨hlt, rfl, by simp [step, ht, hd, hf]⟩)

/-- A step that counts a result has taken a failure from before the deadline. -/
theorem step_counted {probe : Probe} {r r' : Race} (hs : r.step probe = .counted r') :
    ∃ f rest, takeFirst r.flights = some (f, rest) ∧ f.ends < r.params.sessionTimeout ∧
      f.response.isSuccess = false ∧ r' = (r.count f rest).refill probe := by
  rcases step_cases probe r with ⟨_, he⟩ | ⟨f, rest, ht, ⟨_, he⟩ | ⟨_, _, _, he⟩ | ⟨hd, hf, he⟩⟩
  · rw [he] at hs; cases hs
  · rw [he] at hs; cases hs
  · rw [he] at hs; cases hs
  · rw [he] at hs
    cases hs
    exact ⟨f, rest, ht, hd, hf, rfl⟩

/-- How a step ends a race: nothing is under way, or the deadline comes first, or a success. -/
inductive Ended (r : Race) : Race → Outcome → Duration → Prop where
  | exhausted : r.flights = [] → Ended r r .exhausted r.clock
  | timedOut {f : Flight} {rest : List Flight} : takeFirst r.flights = some (f, rest) →
      r.params.sessionTimeout ≤ f.ends → Ended r r .timedOut r.params.sessionTimeout
  | found {f : Flight} {rest : List Flight} {latency : Duration} :
      takeFirst r.flights = some (f, rest) → f.ends < r.params.sessionTimeout →
      f.response = .success latency → Ended r (r.count f rest) (.found f.candidate latency) f.ends

theorem step_ended {probe : Probe} {r r' : Race} {outcome : Outcome} {elapsed : Duration}
    (hs : r.step probe = .ended r' outcome elapsed) : r.Ended r' outcome elapsed := by
  rcases step_cases probe r with
    ⟨hnil, he⟩ | ⟨f, rest, ht, ⟨hd, he⟩ | ⟨hd, latency, hf, he⟩ | ⟨_, _, he⟩⟩
  · rw [he] at hs; cases hs
    exact .exhausted hnil
  · rw [he] at hs; cases hs
    exact .timedOut ht hd
  · rw [he] at hs; cases hs
    exact .found ht hd hf
  · rw [he] at hs; cases hs

theorem due_eq {r : Race} {f : Flight} {rest : List Flight}
    (ht : takeFirst r.flights = some (f, rest)) : r.due = min r.params.sessionTimeout f.ends := by
  simp [due, ht]

theorem count_refill_eq (probe : Probe) (r : Race) (f : Flight) (rest : List Flight) :
    (r.count f rest).refill probe =
      { r with
        flights := rest ++
          launchAll probe r.params f.ends (r.total - r.waiting.length) (r.waiting.take 1)
        waiting := r.waiting.drop 1
        counted := r.counted ++ [f]
        clock := f.ends } := by
  simp [refill, count, dispatch_eq]

section Sound

variable {probe : Probe} {params : Params} {candidates : List Candidate}

theorem start_sound : (start probe params candidates).Sound probe params candidates := by
  have hw := params.workers_le candidates.length
  have hstart : start probe params candidates =
      { params := params, total := candidates.length,
        waiting := candidates.drop (params.workers candidates.length),
        flights := launchAll probe params 0 0 (candidates.take (params.workers candidates.length)),
        counted := [], clock := 0 } := by
    simp [start, dispatch_eq]
  rw [hstart]
  refine ⟨rfl, rfl, ?_, ?_, ?_, ?_, ?_, ?_, ?_, ?_, ?_⟩
  · intro f hf
    exact (genuine_of_mem_launchAll (List.take_prefix _ _) hf).1
  · simp [dispatched, slots_launchAll, List.range_eq_range']
  · simp [dispatched, Nat.min_eq_left hw]
  · show ([] ++ launchAll ..).length ≤ _
    rw [List.nil_append, length_launchAll]
    exact List.length_take_le' _ _
  · simp [tested]
  · simp
  · simp
  · intro f _
    exact Nat.zero_le _
  · simp

/-- The number of the next candidate, counted from what is waiting and from what was started. -/
theorem Sound.next_slot {r : Race} (h : r.Sound probe params candidates) :
    r.total - r.waiting.length = r.dispatched.length := by
  have hle := h.dispatched_le
  rw [h.total_eq, h.waiting_eq, List.length_drop]
  omega

theorem Sound.flights_eq_nil {r : Race} (h : r.Sound probe params candidates)
    (hf : r.flights = []) : r.tested = candidates.length := by
  have hle := h.dispatched_le
  have hin := h.inFlight
  simp only [dispatched, List.length_append, hf, List.length_nil, tested] at hle hin ⊢
  by_cases ht : 0 < candidates.length
  · have hw := params.workers_pos ht
    omega
  · omega

theorem Sound.clock_le {r : Race} (h : r.Sound probe params candidates) {f : Flight}
    {rest : List Flight} (ht : takeFirst r.flights = some (f, rest)) : r.clock ≤ f.ends :=
  h.coming f ((takeFirst_perm ht).subset (List.mem_cons_self ..))

theorem dispatched_count {r : Race} {f : Flight} {rest : List Flight}
    (ht : takeFirst r.flights = some (f, rest)) : (r.count f rest).dispatched.Perm r.dispatched := by
  show ((r.counted ++ [f]) ++ rest).Perm (r.counted ++ r.flights)
  rw [List.append_assoc]
  exact (takeFirst_perm ht).append_left _

/-- The tests started once a result is counted: those before, and that of the next candidate. -/
theorem Sound.dispatched_refill {r : Race} (h : r.Sound probe params candidates) {f : Flight}
    {rest : List Flight} (ht : takeFirst r.flights = some (f, rest)) :
    ((r.count f rest).refill probe).dispatched.Perm
      (r.dispatched ++
        launchAll probe params f.ends r.dispatched.length (r.waiting.take 1)) := by
  rw [count_refill_eq, h.next_slot, h.params_eq]
  show (r.counted ++ [f] ++ (rest ++ _)).Perm _
  rw [← List.append_assoc]
  exact (dispatched_count ht).append_right _

/-- The test of the next candidate, if there is one. -/
theorem Sound.genuine_next {r : Race} (h : r.Sound probe params candidates) {now : Duration}
    {g : Flight}
    (hg : g ∈ launchAll probe params now r.dispatched.length (r.waiting.take 1)) :
    g.Genuine probe params candidates ∧ g.started = now := by
  refine genuine_of_mem_launchAll ?_ hg
  rw [h.waiting_eq]
  exact List.take_prefix _ _

theorem Sound.length_refill {r : Race} (h : r.Sound probe params candidates) {f : Flight}
    {rest : List Flight} (ht : takeFirst r.flights = some (f, rest)) :
    ((r.count f rest).refill probe).dispatched.length =
      r.dispatched.length + min 1 (candidates.length - r.dispatched.length) := by
  rw [(h.dispatched_refill ht).length_eq, List.length_append, length_launchAll, List.length_take,
    h.waiting_eq, List.length_drop]

theorem Sound.slots_refill {r : Race} (h : r.Sound probe params candidates) {f : Flight}
    {rest : List Flight} (ht : takeFirst r.flights = some (f, rest)) :
    (((r.count f rest).refill probe).dispatched.map (·.slot)).Perm
      (List.range ((r.count f rest).refill probe).dispatched.length) := by
  have hall := h.dispatched_refill ht
  refine (hall.map _).trans ?_
  rw [hall.length_eq, List.map_append, slots_launchAll, List.length_append, length_launchAll,
    List.range_eq_range', ← List.range'_append_1, Nat.zero_add, ← List.range_eq_range']
  exact h.slots.append_right _

theorem Sound.waiting_refill {r : Race} (h : r.Sound probe params candidates) {f : Flight}
    {rest : List Flight} (ht : takeFirst r.flights = some (f, rest)) :
    ((r.count f rest).refill probe).waiting =
      candidates.drop ((r.count f rest).refill probe).dispatched.length := by
  rw [h.length_refill ht, count_refill_eq, h.waiting_eq]
  simp only [List.drop_drop]
  by_cases hmore : r.dispatched.length < candidates.length
  · rw [Nat.min_eq_left (by omega)]
  · rw [List.drop_of_length_le (by omega), List.drop_of_length_le (by omega)]

theorem Sound.refill {r : Race} (h : r.Sound probe params candidates) {f : Flight}
    {rest : List Flight} (ht : takeFirst r.flights = some (f, rest))
    (hd : f.ends < r.params.sessionTimeout) (hf : f.response.isSuccess = false) :
    ((r.count f rest).refill probe).Sound probe params candidates := by
  have hperm : (f :: rest).Perm r.flights := takeFirst_perm ht
  have hclock : r.clock ≤ f.ends := h.clock_le ht
  have hcounted : ((r.count f rest).refill probe).counted = r.counted ++ [f] := by
    rw [count_refill_eq]
  have hflights : ((r.count f rest).refill probe).flights =
      rest ++ launchAll probe params f.ends r.dispatched.length (r.waiting.take 1) := by
    rw [count_refill_eq, h.next_slot, h.params_eq]
  have hclock' : ((r.count f rest).refill probe).clock = f.ends := by
    rw [count_refill_eq]
  refine ⟨h.params_eq, h.total_eq, ?_, h.slots_refill ht, h.waiting_refill ht, ?_, ?_, ?_, ?_, ?_,
    ?_⟩
  · intro g hg
    rcases List.mem_append.1 ((h.dispatched_refill ht).subset hg) with hg | hg
    · exact h.genuine g hg
    · exact (h.genuine_next hg).1
  · rw [h.length_refill ht]
    have hle := h.dispatched_le
    omega
  · have hle := h.dispatched_le
    have hin := h.inFlight
    have hlen : rest.length + 1 = r.flights.length := hperm.length_eq
    have hcount : r.dispatched.length = r.counted.length + r.flights.length := by
      simp [dispatched]
    rw [tested, hcounted, hflights]
    simp only [tested, List.length_append, length_launchAll, h.waiting_eq, List.length_take,
      List.length_drop, List.length_singleton] at hin ⊢
    omega
  · rw [hcounted]
    intro g hg
    rcases List.mem_append.1 hg with hg | hg
    · exact h.failed g hg
    · rw [List.mem_singleton.1 hg]
      exact hf
  · rw [hcounted, hclock']
    intro g hg
    rcases List.mem_append.1 hg with hg | hg
    · exact Nat.le_trans (h.passed g hg) hclock
    · obtain rfl := List.mem_singleton.1 hg
      exact Nat.le_refl _
  · rw [hflights, hclock']
    intro g hg
    rcases List.mem_append.1 hg with hg | hg
    · exact takeFirst_le ht g (hperm.subset (List.mem_cons_of_mem f hg))
    · obtain ⟨hgen, hstart⟩ := h.genuine_next hg
      rw [← hstart, hgen.2]
      simp only [Flight.launch_started]
      exact Flight.started_le_launch_ends ..
  · rw [hclock', ← h.params_eq]
    exact fun _ => hd

/-- A counted result keeps the invariant. -/
theorem step_sound {r r' : Race} (h : r.Sound probe params candidates)
    (hs : r.step probe = .counted r') : r'.Sound probe params candidates := by
  obtain ⟨f, rest, ht, hd, hf, rfl⟩ := step_counted hs
  exact h.refill ht hd hf

theorem Sound.clock_le_due {r : Race} (h : r.Sound probe params candidates)
    (hc : r.counted ≠ []) : r.clock ≤ r.due := by
  cases ht : takeFirst r.flights with
  | none => simp [due, ht]
  | some p =>
    obtain ⟨f, rest⟩ := p
    rw [due_eq ht, h.params_eq]
    exact Nat.le_min.2 ⟨Nat.le_of_lt (h.inTime hc), h.clock_le ht⟩

/-- Time does not go back from one result to the next. -/
theorem Sound.due_le {r r' : Race} (h : r.Sound probe params candidates)
    (hs : r.step probe = .counted r') : r.due ≤ r'.due := by
  have hr' := step_sound h hs
  obtain ⟨f, rest, ht, _, _, rfl⟩ := step_counted hs
  have hclock := hr'.clock_le_due (by rw [count_refill_eq]; simp)
  rw [count_refill_eq] at hclock ⊢
  rw [due_eq ht]
  exact Nat.le_trans (Nat.min_le_right _ _) hclock

end Sound

/-- A race ends at the instant at which its next step is due. -/
theorem elapsed_eq_due {probe : Probe} {r r' : Race} {outcome : Outcome} {elapsed : Duration}
    (hs : r.step probe = .ended r' outcome elapsed) : elapsed = r.due := by
  cases step_ended hs with
  | exhausted hnil => simp [due, takeFirst_eq_none.2 hnil]
  | timedOut ht hd => rw [due_eq ht, Nat.min_eq_left hd]
  | found ht hd _ => rw [due_eq ht, Nat.min_eq_right (Nat.le_of_lt hd)]

end Race
end ResolverRace
