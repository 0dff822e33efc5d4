import ResolverRace.Proofs.Race.Greedy
import ResolverRace.Proofs.Race.Moves

/-!
# What holds of a race step by step

`Engine.Sound` is true of a race whatever its workers and its supervisor have done: the tests that
were started are those of the first candidates in their order, and each of them was counted, waits
to be counted, is under way or was given up. `Engine.Open` is true until the race is decided:
what was counted has failed in time, and the workers were never idle without need.

* `Params.Fits` — nothing breaks down: all that a race adds up are times that there are.
* `begin_sound`, `Acts.sound`, `Run.sound` — the first invariant.
* `begin_open`, `Acts.open`, `Run.open` — the second one.
* `Run.cases` — a race waits, or was decided when it began, or has come to its decision.
-/

namespace ResolverRace

/-- The last instant at which a timer of the race can stand, that of a test started at the deadline,
is an instant of the clock. -/
def Params.Fits (p : Params) (begunAt : Duration) : Prop :=
  begunAt + (p.sessionTimeout + p.bound) ≤ Duration.lastInstant

instance (p : Params) (begunAt : Duration) : Decidable (p.Fits begunAt) :=
  inferInstanceAs (Decidable (_ ≤ _))

theorem Params.Fits.hasDeadline {p : Params} {begunAt : Duration} (h : p.Fits begunAt) :
    p.HasDeadline begunAt :=
  Nat.le_trans (Nat.add_le_add_left (Nat.le_add_right _ _) _) h

theorem Params.Fits.hasBound {p : Params} {begunAt : Duration} (h : p.Fits begunAt) :
    p.HasBound := by
  have hinstant : p.bound ≤ Duration.lastInstant :=
    Nat.le_trans (Nat.le_trans (Nat.le_add_left _ _) (Nat.le_add_left _ _)) h
  exact Nat.le_trans hinstant (by decide)

namespace Engine

/-- What holds of a race at any time. -/
structure Sound (probe : Probe) (params : Params) (candidates : List Candidate) (e : Engine) :
    Prop where
  params_eq : e.params = params
  total_eq : e.total = candidates.length
  genuine : ∀ f ∈ e.calls, f.Genuine probe params candidates
  slots : e.calls.map (·.slot) = List.range e.calls.length
  queue_eq : params.HasBound → e.queue = candidates.drop e.calls.length
  /-- Workers that break down start nothing. -/
  calls_eq : ¬params.HasBound → e.calls = []
  inOrder : e.calls.Pairwise fun f g => f.started ≤ g.started
  begun : ∀ f ∈ e.calls, f.started ≤ e.clock
  coming : ∀ f ∈ e.testing, e.clock ≤ f.ends
  /-- Where the tests have gone; a worker whose result was given up has left. -/
  account : ∃ givenUp, (e.counted ++ (e.sent ++ (e.testing ++ givenUp))).Perm e.calls ∧
    e.free + e.testing.length + givenUp.length ≤ params.workers candidates.length ∧
    (e.supervisor = .waiting → givenUp = [])

/-- What holds until a race is decided, if its workers do not break down. -/
structure Open (probe : Probe) (params : Params) (candidates : List Candidate) (e : Engine) :
    Prop where
  sound : e.Sound probe params candidates
  failed : ∀ f ∈ e.counted, f.response.isSuccess = false ∧ f.ends < params.sessionTimeout
  passed : ∀ f ∈ e.counted, f.ends ≤ e.clock
  arrived : ∀ f ∈ e.sent, f.ends = e.clock
  inTime : e.clock ≤ params.sessionTimeout
  /-- Time has passed only for the sake of a test. -/
  paced : e.clock = 0 ∨ ∃ f ∈ e.calls, e.clock ≤ f.ends
  /-- When the time is up, there is a result that was not counted. -/
  late : params.sessionTimeout ≤ e.clock → e.counted.length < candidates.length
  /-- Nobody leaves as long as there is a candidate to be taken. -/
  staff : e.queue ≠ [] → e.cancelled = false →
    e.free + e.testing.length = params.workers candidates.length
  greedy : Greedy (params.workers candidates.length) e.calls
  full : e.queue ≠ [] → ∀ now < e.clock,
    params.workers candidates.length ≤ busy e.calls e.calls.length now

section

variable {probe : Probe} {params : Params} {candidates : List Candidate} {e e' : Engine}
  {m : Move} {ms : List Move} {begunAt : Duration} {cancelled : Bool} {outcome : Outcome}
  {elapsed : Duration}

/-! ## What holds at any time -/

theorem Sound.covers (h : e.Sound probe params candidates) :
    Covers probe params candidates e.calls :=
  ⟨h.genuine, List.Perm.of_eq h.slots⟩

/-- The candidate at the head of the queue is the next one. -/
theorem Sound.next_candidate (h : e.Sound probe params candidates) (hbound : params.HasBound)
    {c : Candidate} {queue : List Candidate} (hqueue : e.queue = c :: queue) :
    candidates[e.calls.length]? = some c ∧ queue = candidates.drop (e.calls.length + 1) := by
  have hdrop : candidates.drop e.calls.length = c :: queue := (h.queue_eq hbound).symm.trans hqueue
  refine ⟨?_, ?_⟩
  · rw [← List.head?_drop, hdrop, List.head?_cons]
  · rw [← List.tail_drop, hdrop, List.tail_cons]

/-- What is under way, or was handed in and not counted, was started. -/
theorem Sound.subset_calls (h : e.Sound probe params candidates) :
    (∀ f ∈ e.counted, f ∈ e.calls) ∧ (∀ f ∈ e.sent, f ∈ e.calls) ∧
      ∀ f ∈ e.testing, f ∈ e.calls := by
  obtain ⟨givenUp, hperm, _⟩ := h.account
  refine ⟨fun f hf => ?_, fun f hf => ?_, fun f hf => ?_⟩
  all_goals exact hperm.subset (by simp [hf])

theorem begin_sound (probe : Probe) (params : Params) (candidates : List Candidate)
    (begunAt : Duration) (cancelled : Bool) :
    (begin params candidates begunAt cancelled).Sound probe params candidates := by
  have hnone : ∀ supervisor, (untouched params candidates supervisor cancelled).Sound
      probe params candidates := by
    intro supervisor
    refine ⟨rfl, rfl, ?_, rfl, fun _ => rfl, fun _ => rfl, .nil, ?_, ?_,
      [], .refl _, Nat.zero_le _, fun _ => rfl⟩
    all_goals exact fun f hf => absurd hf List.not_mem_nil
  rw [begin]
  split
  · exact hnone _
  · split
    · exact hnone _
    · obtain ⟨hp, ht, hg, hs, hq, hc, ho, hb, hcoming, _⟩ := hnone .waiting
      exact ⟨hp, ht, hg, hs, hq, hc, ho, hb, hcoming, [], .refl _, Nat.le_refl _, fun _ => rfl⟩

/-- A worker takes the next candidate. -/
theorem Sound.take (h : e.Sound probe params candidates) {free : Nat} {c : Candidate}
    {queue : List Candidate} (hfree : e.free = free + 1) (hqueue : e.queue = c :: queue)
    (hbound : params.HasBound) :
    ({ e with
        queue := queue, free := free, testing := e.testing ++ [e.next probe c],
        calls := e.calls ++ [e.next probe c] } : Engine).Sound probe params candidates := by
  obtain ⟨hplace, hrest⟩ := h.next_candidate hbound hqueue
  have hnext : e.next probe c = .launch probe params e.calls.length e.clock c := by
    rw [next, h.params_eq]
  have hstarted : (e.next probe c).started = e.clock := Flight.launch_started ..
  obtain ⟨givenUp, hperm, hstaff, hwaiting⟩ := h.account
  refine ⟨h.params_eq, h.total_eq, ?_, ?_, fun _ => ?_, fun hno => absurd hbound hno, ?_, ?_, ?_,
    givenUp, ?_, ?_, hwaiting⟩
  · intro f hf
    rcases List.mem_append.1 hf with hf | hf
    · exact h.genuine f hf
    · rw [List.mem_singleton.1 hf, hnext]
      simp [Flight.Genuine, hplace]
  · simp [h.slots, List.range_succ, next]
  · simpa using hrest
  · refine List.pairwise_append.2 ⟨h.inOrder, List.pairwise_singleton _ _, fun f hf g hg => ?_⟩
    rw [List.mem_singleton.1 hg, hstarted]
    exact h.begun f hf
  · intro f hf
    rcases List.mem_append.1 hf with hf | hf
    · exact h.begun f hf
    · exact Nat.le_of_eq (by rw [List.mem_singleton.1 hf, hstarted])
  · intro f hf
    rcases List.mem_append.1 hf with hf | hf
    · exact h.coming f hf
    · rw [List.mem_singleton.1 hf]
      exact Flight.started_le_launch_ends ..
  · have hlast : ([e.next probe c] ++ givenUp).Perm (givenUp ++ [e.next probe c]) :=
      List.perm_append_comm
    refine List.Perm.trans ?_ (hperm.append_right [e.next probe c])
    simp only [List.append_assoc]
    exact ((hlast.append_left e.testing).append_left e.sent).append_left e.counted
  · simp only [List.length_append, List.length_singleton]
    omega

/-- The tests under way without the `i`th of them. -/
theorem testing_perm {i : Nat} {f : Flight} (hf : e.testing[i]? = some f) :
    (f :: e.testing.eraseIdx i).Perm e.testing := by
  obtain ⟨hi, rfl⟩ := List.getElem?_eq_some_iff.1 hf
  exact List.getElem_cons_eraseIdx_perm hi

theorem Sound.coming_eraseIdx (h : e.Sound probe params candidates) (i : Nat) :
    ∀ f ∈ e.testing.eraseIdx i, e.clock ≤ f.ends :=
  fun f hf => h.coming f (List.mem_of_mem_eraseIdx hf)

/-- A result is handed in. -/
theorem Sound.send (h : e.Sound probe params candidates) {i : Nat} {f : Flight}
    (hf : e.testing[i]? = some f) :
    ({ e with
        testing := e.testing.eraseIdx i, sent := e.sent ++ [f], free := e.free + 1 } :
      Engine).Sound probe params candidates := by
  have htesting := testing_perm hf
  have hlen := htesting.length_eq
  obtain ⟨givenUp, hperm, hstaff, hwaiting⟩ := h.account
  refine { h with
    coming := h.coming_eraseIdx i
    account := ⟨givenUp, List.Perm.trans ?_ hperm, ?_, hwaiting⟩ }
  · simp only [List.append_assoc]
    exact ((htesting.append_right givenUp).append_left e.sent).append_left e.counted
  · simp only [List.length_cons] at hlen ⊢
    omega

/-- A result is given up, and its worker leaves. -/
theorem Sound.discard (h : e.Sound probe params candidates) {i : Nat} {f : Flight}
    (hf : e.testing[i]? = some f) (hw : e.supervisor ≠ .waiting) :
    ({ e with testing := e.testing.eraseIdx i } : Engine).Sound probe params candidates := by
  have htesting := testing_perm hf
  have hlen := htesting.length_eq
  obtain ⟨givenUp, hperm, hstaff, _⟩ := h.account
  refine { h with
    coming := h.coming_eraseIdx i
    account := ⟨f :: givenUp, List.Perm.trans ?_ hperm, ?_, fun hwaiting => absurd hwaiting hw⟩ }
  · refine (List.Perm.append_left e.sent ?_).append_left e.counted
    exact List.perm_middle.trans (htesting.append_right givenUp)
  · simp only [List.length_cons] at hlen ⊢
    omega

/-- The result in front is counted. -/
theorem Sound.counting (h : e.Sound probe params candidates) {f : Flight} {rest : List Flight}
    (hsent : e.sent = f :: rest) (cancels : Bool) :
    (e.counting f rest cancels).Sound probe params candidates := by
  obtain ⟨givenUp, hperm, hstaff, hwaiting⟩ := h.account
  refine { h with account := ⟨givenUp, ?_, hstaff, hwaiting⟩ }
  rw [hsent] at hperm
  simpa [Engine.counting] using hperm

theorem Sound.conclude (h : e.Sound probe params candidates) (hw : e.supervisor = .waiting)
    (outcome : Outcome) : (e.conclude outcome).Sound probe params candidates := by
  obtain ⟨givenUp, hperm, hstaff, hwaiting⟩ := h.account
  exact { h with account := ⟨givenUp, hperm, hstaff, fun _ => hwaiting hw⟩ }

/-- Whatever is done, the invariant is kept. -/
theorem Acts.sound (ha : e.Acts probe m e') (h : e.Sound probe params candidates) :
    e'.Sound probe params candidates := by
  obtain ⟨givenUp, hperm, hstaff, hwaiting⟩ := h.account
  cases ha with
  | take hfree hqueue _ hbound => exact h.take hfree hqueue (h.params_eq ▸ hbound)
  | @breakDown free _ _ hfree _ _ hbound =>
    have hless : free + e.testing.length + givenUp.length ≤ params.workers candidates.length := by
      omega
    exact { h with
      queue_eq := fun hb => absurd (h.params_eq ▸ hb) hbound
      account := ⟨givenUp, hperm, hless, hwaiting⟩ }
  | @leave free hfree =>
    have hless : free + e.testing.length + givenUp.length ≤ params.workers candidates.length := by
      omega
    exact { h with account := ⟨givenUp, hperm, hless, hwaiting⟩ }
  | send hf => exact h.send hf
  | discard hf _ hw => exact h.discard hf hw
  | fail hsent => exact h.counting hsent _
  | decide hw hdecides =>
    cases hdecides with
    | found hsent => exact (h.counting hsent _).conclude hw _
    | cancelled | timedOut | exhausted => exact h.conclude hw _
  | cancel => exact { h with }
  | pass hclock hsleeps =>
    exact { h with
      begun := fun f hf => Nat.le_trans (h.begun f hf) (Nat.le_of_lt hclock)
      coming := hsleeps.2.1 }

theorem Run.sound (hr : Run probe e ms e') (h : e.Sound probe params candidates) :
    e'.Sound probe params candidates := by
  induction hr with
  | nil => exact h
  | snoc _ hm ih => exact (acts_of_move hm).sound ih

/-! ## What holds until the decision -/

/-- A race that waits when it begins. -/
theorem begin_waiting (hw : (begin params candidates begunAt cancelled).supervisor = .waiting) :
    candidates ≠ [] ∧ cancelled = false ∧
      begin params candidates begunAt cancelled =
        { untouched params candidates .waiting false with
          free := params.workers candidates.length } := by
  rw [begin] at hw ⊢
  by_cases hempty : candidates = []
  · rw [if_pos hempty] at hw
    cases hw
  · rw [if_neg hempty] at hw ⊢
    cases cancelled with
    | true => cases hw
    | false =>
      by_cases hd : params.HasDeadline begunAt
      · simp only [Bool.false_eq_true, if_false, if_pos hd]
        exact ⟨hempty, trivial, trivial⟩
      · simp only [Bool.false_eq_true, if_false, if_neg hd] at hw
        cases hw

/-- How a race begins whose times do not overflow. -/
theorem begin_cases (candidates : List Candidate) (cancelled : Bool)
    (hdeadline : params.HasDeadline begunAt) :
    (candidates = [] ∧ begin params candidates begunAt cancelled =
      untouched params candidates (.decided .noCandidates 0) cancelled) ∨
    (candidates ≠ [] ∧ cancelled = true ∧ begin params candidates begunAt cancelled =
      untouched params candidates (.decided .cancelled 0) true) ∨
    (candidates ≠ [] ∧ cancelled = false ∧
      (begin params candidates begunAt cancelled).supervisor = .waiting) := by
  by_cases hempty : candidates = []
  · exact .inl ⟨hempty, by rw [begin, if_pos hempty]⟩
  · cases cancelled with
    | true => exact .inr (.inl ⟨hempty, rfl, by rw [begin, if_neg hempty]; rfl⟩)
    | false => exact .inr (.inr ⟨hempty, rfl, by rw [begin_eq hempty hdeadline]; rfl⟩)

/-- A race that is decided when it begins has taken no time. -/
theorem begin_elapsed
    (hd : (begin params candidates begunAt cancelled).supervisor = .decided outcome elapsed) :
    elapsed = 0 := by
  rw [begin] at hd
  split at hd
  · cases hd
    rfl
  · split at hd
    · cases hd
      rfl
    · split at hd <;> cases hd

theorem begin_open (probe : Probe)
    (hw : (begin params candidates begunAt cancelled).supervisor = .waiting) :
    (begin params candidates begunAt cancelled).Open probe params candidates := by
  have hsound := begin_sound probe params candidates begunAt cancelled
  obtain ⟨hne, rfl, hbegin⟩ := begin_waiting hw
  rw [hbegin] at hsound ⊢
  refine ⟨hsound, ?_, ?_, ?_, Nat.zero_le _, .inl rfl, fun _ => List.length_pos_iff.2 hne,
    fun _ _ => rfl, .nil _, fun _ now hnow => absurd hnow (Nat.not_lt_zero now)⟩
  all_goals exact fun f hf => absurd hf List.not_mem_nil

/-- Until the decision every test was counted, waits to be counted or is under way. -/
theorem Sound.calls_perm (h : e.Sound probe params candidates) (hw : e.supervisor = .waiting) :
    (e.counted ++ (e.sent ++ e.testing)).Perm e.calls := by
  obtain ⟨givenUp, hperm, _, hwaiting⟩ := h.account
  rw [hwaiting hw, List.append_nil] at hperm
  exact hperm

/-- No more tests go on beyond the present instant than are under way. -/
theorem Open.busy_le (h : e.Open probe params candidates) (hw : e.supervisor = .waiting)
    (place : Nat) : busy e.calls place e.clock ≤ e.testing.length := by
  rw [← busy_of_perm (h.sound.calls_perm hw), busy_append, busy_append, busy_eq_zero h.passed,
    busy_eq_zero fun f hf => Nat.le_of_eq (h.arrived f hf)]
  simpa using busy_le_length e.testing place e.clock

/-- The tests under way keep their workers busy up to the first of their ends. -/
theorem Sound.length_testing_le (h : e.Sound probe params candidates)
    (hw : e.supervisor = .waiting) {now : Duration} (hnow : ∀ f ∈ e.testing, now < f.ends) :
    e.testing.length ≤ busy e.calls e.calls.length now := by
  have hplace : ∀ f ∈ e.testing, f.slot < e.calls.length := fun f hf =>
    h.covers.slot_lt (h.subset_calls.2.2 f hf)
  rw [← busy_of_perm (h.calls_perm hw), busy_append, busy_append, busy_eq_length hplace hnow]
  omega

theorem Open.take (h : e.Open probe params candidates) (hw : e.supervisor = .waiting)
    {free : Nat} {c : Candidate} {queue : List Candidate} (hfree : e.free = free + 1)
    (hqueue : e.queue = c :: queue) (hbound : params.HasBound) :
    ({ e with
        queue := queue, free := free, testing := e.testing ++ [e.next probe c],
        calls := e.calls ++ [e.next probe c] } : Engine).Open probe params candidates := by
  have hsome : e.queue ≠ [] := hqueue ▸ List.cons_ne_nil c queue
  have hslot : (e.next probe c).slot = e.calls.length := Flight.launch_slot ..
  have hstarted : (e.next probe c).started = e.clock := Flight.launch_started ..
  obtain ⟨_, _, hstaff, _⟩ := h.sound.account
  refine ⟨h.sound.take hfree hqueue hbound, h.failed, h.passed, h.arrived, h.inTime, ?_, h.late,
    fun _ hc => ?_, ?_, fun _ now hnow => ?_⟩
  · exact h.paced.imp id fun ⟨f, hf, hle⟩ => ⟨f, List.mem_append_left _ hf, hle⟩
  · have hall := h.staff hsome hc
    simp only [List.length_append, List.length_singleton]
    omega
  · refine h.greedy.concat (fun f hf => hslot ▸ h.sound.covers.slot_lt hf) ?_ fun now hnow => ?_
    · have hbusy := h.busy_le hw (e.next probe c).slot
      rw [hstarted]
      omega
    · rw [hslot]
      exact h.full hsome now (hstarted ▸ hnow)
  · have hfull := h.full hsome now hnow
    refine Nat.le_trans hfull ?_
    rw [busy_append]
    refine Nat.le_trans ?_ (Nat.le_add_right _ _)
    refine List.countP_mono_left fun f hf hbusy => ?_
    simp only [List.length_append, List.length_singleton, Bool.and_eq_true,
      decide_eq_true_eq] at hbusy ⊢
    exact ⟨by omega, hbusy.2⟩

/-- Time passes. -/
theorem Open.pass (h : e.Open probe params candidates) (hw : e.supervisor = .waiting)
    {now : Duration} (hclock : e.clock < now) (hsleeps : e.SleepsUntil now) :
    ({ e with clock := now } : Engine).Open probe params candidates := by
  obtain ⟨hfree, hcoming, hrest⟩ := hsleeps
  obtain ⟨hcancelled, hdeadline, hsent, htesting⟩ := hrest hw
  have hacts : e.Acts probe (.pass now) { e with clock := now } :=
    .pass hclock ⟨hfree, hcoming, hrest⟩
  have hsound := hacts.sound h.sound
  refine ⟨hsound, h.failed, fun f hf => Nat.le_trans (h.passed f hf) (Nat.le_of_lt hclock),
    ?_, ?_, ?_, fun _ => ?_, h.staff, h.greedy, fun hsome t ht => ?_⟩
  · show ∀ f ∈ e.sent, f.ends = now
    rw [hsent]
    exact fun f hf => absurd hf List.not_mem_nil
  · exact h.sound.params_eq ▸ hdeadline
  · obtain ⟨f, hf⟩ := List.exists_mem_of_ne_nil _ htesting
    exact .inr ⟨f, h.sound.subset_calls.2.2 f hf, hcoming f hf⟩
  · -- Something is under way, so not all was counted.
    have hlen := (h.sound.calls_perm hw).length_eq
    have hpos := List.length_pos_iff.2 htesting
    have hle := h.sound.covers.length_le
    simp only [List.length_append] at hlen
    show e.counted.length < _
    omega
  · have hall := h.staff hsome hcancelled
    rw [hfree, Nat.zero_add] at hall
    rw [← hall]
    exact h.sound.length_testing_le hw fun f hf => Nat.lt_of_lt_of_le ht (hcoming f hf)

/-- Whatever is done, the invariant is kept until the decision. -/
theorem Acts.open (ha : e.Acts probe m e') (hbound : params.HasBound)
    (hw : e.supervisor = .waiting) (hw' : e'.supervisor = .waiting)
    (h : e.Open probe params candidates) : e'.Open probe params candidates := by
  have hsound := ha.sound h.sound
  cases ha with
  | take hfree hqueue => exact h.take hw hfree hqueue hbound
  | breakDown _ _ _ hno => exact absurd (h.sound.params_eq ▸ hbound) hno
  | leave hfree hleave =>
    refine { h with sound := hsound, staff := fun hsome hc => ?_ }
    rcases hleave with (hstopped | ⟨_, _, hd⟩) | hempty
    · rw [show e.cancelled = false from hc] at hstopped
      cases hstopped
    · rw [hw] at hd
      cases hd
    · exact absurd hempty hsome
  | @send i f hf hends =>
    have hlen := (testing_perm hf).length_eq
    refine { h with sound := hsound, arrived := ?_, staff := fun hsome hc => ?_ }
    · intro g hg
      rcases List.mem_append.1 hg with hg | hg
      · exact h.arrived g hg
      · rw [List.mem_singleton.1 hg]
        exact Nat.le_antisymm hends (h.sound.coming f (List.mem_of_getElem? hf))
    · have hall := h.staff hsome hc
      simp only [List.length_cons] at hlen ⊢
      omega
  | discard _ _ hno => exact absurd hw hno
  | @fail f rest cancels hsent _ hcancelled hclock hf =>
    have harrived := h.arrived f (hsent ▸ List.mem_cons_self ..)
    rw [h.sound.params_eq] at hclock
    refine { h with
      sound := hsound
      failed := fun g hg => ?_
      passed := fun g hg => ?_
      arrived := fun g hg => ?_
      late := fun hlate => absurd hclock (Nat.not_lt.2 hlate)
      staff := fun hsome _ => h.staff hsome hcancelled }
    · rcases List.mem_append.1 hg with hg | hg
      · exact h.failed g hg
      · rw [List.mem_singleton.1 hg]
        exact ⟨hf, harrived ▸ hclock⟩
    · rcases List.mem_append.1 hg with hg | hg
      · exact h.passed g hg
      · rw [List.mem_singleton.1 hg]
        exact Nat.le_of_eq harrived
    · exact h.arrived g (hsent ▸ List.mem_cons_of_mem f hg)
  | decide _ hdecides =>
    rw [hdecides.supervisor] at hw'
    cases hw'
  | cancel =>
    exact { h with sound := hsound, staff := fun _ hc => Bool.noConfusion (hc : true = false) }
  | pass hclock hsleeps => exact h.pass hw hclock hsleeps

theorem Run.open (hr : Run probe (begin params candidates begunAt cancelled) ms e)
    (hbound : params.HasBound) (hw : e.supervisor = .waiting) :
    e.Open probe params candidates := by
  exact hr.preserves hw (fun ha hw₁ hw₂ => ha.open hbound hw₁ hw₂)
    (begin_open probe (hr.waiting_first hw))

/-! ## Where a race stands -/

/-- A race that has a deadline does not break down. -/
theorem Run.supervisor_ne_broken (hdeadline : params.HasDeadline begunAt)
    (hr : Run probe (begin params candidates begunAt cancelled) ms e) :
    e.supervisor ≠ .broken := by
  induction hr with
  | nil =>
    rcases begin_cases candidates cancelled hdeadline with ⟨_, hs⟩ | ⟨_, _, hs⟩ | ⟨_, _, hs⟩
    all_goals
      rw [hs]
      exact Supervisor.noConfusion
  | snoc _ hm ih =>
    rcases (acts_of_move hm).supervisor with hsame | ⟨_, outcome, hdecides⟩
    · exact hsame ▸ ih
    · rw [hdecides.supervisor]
      exact Supervisor.noConfusion

/-- A race with a deadline waits, or was decided when it began, or one of its moves has decided
it. -/
theorem Run.cases (hdeadline : params.HasDeadline begunAt)
    (hr : Run probe (begin params candidates begunAt cancelled) ms e) :
    e.supervisor = .waiting ∨
    (∃ outcome elapsed, (begin params candidates begunAt cancelled).supervisor =
        .decided outcome elapsed ∧ (begin params candidates begunAt cancelled).Keeps e) ∨
    ∃ ms₁ p m q outcome, Run probe (begin params candidates begunAt cancelled) ms₁ p ∧
      p.supervisor = .waiting ∧ p.Decides m q outcome ∧ q.Keeps e ∧
      e.supervisor = .decided outcome p.clock := by
  cases hs : (begin params candidates begunAt cancelled).supervisor with
  | waiting =>
    cases he : e.supervisor with
    | waiting => exact .inl rfl
    | decided outcome elapsed =>
      obtain ⟨ms₁, p, m, q, hp, hw, hdecides, rfl, hkeeps⟩ := hr.decision hs he
      exact .inr (.inr ⟨ms₁, p, m, q, outcome, hp, hw, hdecides, hkeeps, rfl⟩)
    | broken => exact absurd he (hr.supervisor_ne_broken hdeadline)
  | decided outcome elapsed => exact .inr (.inl ⟨outcome, elapsed, rfl, hr.keeps hs⟩)
  | broken =>
    have hnil : Run probe (begin params candidates begunAt cancelled) [] _ := .nil
    exact absurd hs (hnil.supervisor_ne_broken hdeadline)

end

end Engine
end ResolverRace
