import Mathlib.Data.List.MinMax
import Mathlib.Data.List.Perm.Subperm
import ResolverRace.Proofs.Race.Flight

/-!
# Workers are never idle without need

A test is started at the first instant at which fewer tests of earlier candidates are under way
than there are workers: no worker takes a second test, and none waits while a candidate does. All
that follows from it is about the tests that were started, whoever started them.

* `Covers` — tests of the first candidates, each of them once.
* `busy` — how many tests of earlier candidates are still under way; `busy_le_busy`: tests that end
  earlier keep fewer workers busy.
* `Greedy` — tests that were started as soon as a worker was free for them.
* `Greedy.underWay_le`, `Greedy.le_underWay` — never more of them are under way than there are
  workers, nor fewer without need.
-/

namespace ResolverRace

/-- Tests of the first candidates, each of them once. -/
structure Covers (probe : Probe) (params : Params) (candidates : List Candidate)
    (fs : List Flight) : Prop where
  genuine : ∀ f ∈ fs, f.Genuine probe params candidates
  /-- Each of the first places was taken once. -/
  slots : (fs.map (·.slot)).Perm (List.range fs.length)

/-- How many tests of the candidates in front of a place go on beyond an instant. -/
def busy (fs : List Flight) (place : Nat) (now : Duration) : Nat :=
  fs.countP fun f => f.slot < place && now < f.ends

/-- Each test was started as soon as a worker was free for it. -/
structure Greedy (workers : Nat) (fs : List Flight) : Prop where
  free : ∀ f ∈ fs, busy fs f.slot f.started < workers
  full : ∀ f ∈ fs, ∀ now < f.started, workers ≤ busy fs f.slot now

/-- How many of the tests were started at the instant `now` or before. -/
def startedBy (fs : List Flight) (now : Duration) : Nat := fs.countP (·.started ≤ now)

/-- How many of the tests ended at the instant `now` or before. -/
def endedBy (fs : List Flight) (now : Duration) : Nat := fs.countP (·.ends ≤ now)

/-- How many of the tests were started by the instant `now` and have not ended then. -/
def underWay (fs : List Flight) (now : Duration) : Nat :=
  fs.countP fun f => f.started ≤ now && now < f.ends

section

variable {probe : Probe} {params : Params} {candidates : List Candidate} {fs gs : List Flight}
  {f g : Flight} {place workers : Nat} {now : Duration}

/-! ## Places that were taken -/

namespace Covers

theorem slot_lt (h : Covers probe params candidates fs) (hf : f ∈ fs) : f.slot < fs.length :=
  List.mem_range.1 (h.slots.subset (List.mem_map_of_mem hf))

theorem exists_slot (h : Covers probe params candidates fs) {i : Nat} (hi : i < fs.length) :
    ∃ f ∈ fs, f.slot = i :=
  List.mem_map.1 (h.slots.symm.subset (List.mem_range.2 hi))

theorem nodup_slots (h : Covers probe params candidates fs) : (fs.map (·.slot)).Nodup :=
  h.slots.symm.nodup List.nodup_range

/-- There is a candidate at every place that was taken. -/
theorem length_le (h : Covers probe params candidates fs) : fs.length ≤ candidates.length := by
  by_contra hmore
  obtain ⟨f, hf, hslot⟩ := h.exists_slot (Nat.lt_of_not_le hmore)
  have hplace := (h.genuine f hf).1
  rw [hslot, List.getElem?_eq_none (Nat.le_refl _)] at hplace
  cases hplace

end Covers

/-! ## How many workers are busy -/

theorem busy_of_perm (h : fs.Perm gs) (place : Nat) (now : Duration) :
    busy fs place now = busy gs place now :=
  h.countP_eq _

theorem busy_append (fs gs : List Flight) (place : Nat) (now : Duration) :
    busy (fs ++ gs) place now = busy fs place now + busy gs place now :=
  List.countP_append

theorem busy_le_length (fs : List Flight) (place : Nat) (now : Duration) :
    busy fs place now ≤ fs.length :=
  List.countP_le_length

/-- What has ended keeps nobody busy. -/
theorem busy_eq_zero (h : ∀ f ∈ fs, f.ends ≤ now) : busy fs place now = 0 := by
  refine List.countP_eq_zero.2 fun f hf => ?_
  simp [h f hf]

/-- Tests of candidates further back do not count. -/
theorem busy_eq_zero_of_place (h : ∀ f ∈ fs, place ≤ f.slot) : busy fs place now = 0 := by
  refine List.countP_eq_zero.2 fun f hf => ?_
  have := h f hf
  simp only [Bool.and_eq_true, decide_eq_true_eq]
  omega

theorem busy_eq_length (hplace : ∀ f ∈ fs, f.slot < place) (hnow : ∀ f ∈ fs, now < f.ends) :
    busy fs place now = fs.length := by
  refine List.countP_eq_length.2 fun f hf => ?_
  simp only [Bool.and_eq_true, decide_eq_true_eq]
  exact ⟨hplace f hf, hnow f hf⟩

/-- No place is taken twice, so there are no more tests of a kind than places for them. -/
theorem countP_le_length (hnodup : (fs.map (·.slot)).Nodup) {kind : Flight → Bool}
    {places : List Nat} (hplaces : ∀ g ∈ fs, kind g = true → g.slot ∈ places) :
    fs.countP kind ≤ places.length := by
  have hsub : (fs.filter kind).map (·.slot) ⊆ places := by
    intro i hi
    obtain ⟨g, hg, rfl⟩ := List.mem_map.1 hi
    obtain ⟨hmem, hkind⟩ := List.mem_filter.1 hg
    exact hplaces g hmem hkind
  have hnodup' : ((fs.filter kind).map (·.slot)).Nodup :=
    hnodup.sublist (List.filter_sublist.map _)
  have hlen := (hnodup'.subperm hsub).length_le
  rw [List.length_map] at hlen
  rw [List.countP_eq_length_filter]
  exact hlen

theorem busy_le_places {places : List Nat} (hnodup : (fs.map (·.slot)).Nodup)
    (hplaces : ∀ g ∈ fs, g.slot < place → now < g.ends → g.slot ∈ places) :
    busy fs place now ≤ places.length := by
  refine countP_le_length hnodup fun g hg hwork => ?_
  simp only [Bool.and_eq_true, decide_eq_true_eq] at hwork
  exact hplaces g hg hwork.1 hwork.2

theorem busy_le_place (hnodup : (fs.map (·.slot)).Nodup) (place : Nat) (now : Duration) :
    busy fs place now ≤ place := by
  have hle : busy fs place now ≤ (List.range place).length :=
    busy_le_places hnodup fun g _ hslot _ => List.mem_range.2 hslot
  rwa [List.length_range] at hle

/-- Tests that end no later, among the candidates in front of a place, keep no more workers
busy. -/
theorem busy_le_busy (hnodup : (gs.map (·.slot)).Nodup)
    (hle : ∀ g ∈ gs, g.slot < place → ∃ f ∈ fs, f.slot = g.slot ∧ g.ends ≤ f.ends) :
    busy gs place now ≤ busy fs place now := by
  let atWork : Flight → Bool := fun f => f.slot < place && now < f.ends
  have hcount : busy gs place now ≤ ((fs.filter atWork).map (·.slot)).length := by
    refine busy_le_places hnodup fun g hg hslot hnow => ?_
    obtain ⟨f, hf, hfslot, hends⟩ := hle g hg hslot
    refine List.mem_map.2 ⟨f, List.mem_filter.2 ⟨hf, ?_⟩, hfslot⟩
    simp only [atWork, Bool.and_eq_true, decide_eq_true_eq]
    exact ⟨hfslot ▸ hslot, Nat.lt_of_lt_of_le hnow hends⟩
  rwa [List.length_map, ← List.countP_eq_length_filter] at hcount

/-! ## Started, ended, under way -/

/-- Whoever was started by an instant has ended by then or is under way. -/
theorem startedBy_le (fs : List Flight) (now : Duration) :
    startedBy fs now ≤ endedBy fs now + underWay fs now := by
  rw [startedBy, List.countP_eq_countP_filter_add fs (·.started ≤ now) (·.ends ≤ now),
    List.countP_filter, List.countP_filter]
  refine Nat.add_le_add (List.countP_mono_left fun f _ hf => ?_)
    (List.countP_mono_left fun f _ hf => ?_)
  · simp only [Bool.and_eq_true] at hf
    exact hf.2
  · simpa using hf

theorem endedBy_eq_zero (h : ∀ f ∈ fs, now < f.ends) : endedBy fs now = 0 :=
  List.countP_eq_zero.2 fun f hf => by simpa using h f hf

/-! ## Workers that are never idle without need -/

namespace Greedy

theorem nil (workers : Nat) : Greedy workers [] :=
  ⟨fun _ hf => absurd hf List.not_mem_nil, fun _ hf => absurd hf List.not_mem_nil⟩

theorem of_perm (h : Greedy workers fs) (hperm : fs.Perm gs) : Greedy workers gs := by
  refine ⟨fun f hf => ?_, fun f hf now hnow => ?_⟩
  · rw [← busy_of_perm hperm]
    exact h.free f (hperm.symm.subset hf)
  · rw [← busy_of_perm hperm]
    exact h.full f (hperm.symm.subset hf) now hnow

/-- One more test at a place behind all others, for which a worker has just become free. -/
theorem concat (h : Greedy workers fs) (hslot : ∀ f ∈ fs, f.slot < g.slot)
    (hfree : busy fs g.slot g.started < workers)
    (hfull : ∀ now < g.started, workers ≤ busy fs g.slot now) : Greedy workers (fs ++ [g]) := by
  -- The new test keeps nobody busy for whom it stands further back.
  have hold : ∀ place ≤ g.slot, ∀ now, busy (fs ++ [g]) place now = busy fs place now := by
    intro place hplace now
    have hnew : busy [g] place now = 0 :=
      busy_eq_zero_of_place fun f hf => (List.mem_singleton.1 hf).symm ▸ hplace
    rw [busy_append, hnew, Nat.add_zero]
  refine ⟨fun f hf => ?_, fun f hf now hnow => ?_⟩
  all_goals rcases List.mem_append.1 hf with hf | hf
  · rw [hold f.slot (Nat.le_of_lt (hslot f hf))]
    exact h.free f hf
  · rw [List.mem_singleton.1 hf, hold g.slot (Nat.le_refl _)]
    exact hfree
  · rw [hold f.slot (Nat.le_of_lt (hslot f hf))]
    exact h.full f hf now hnow
  · obtain rfl := List.mem_singleton.1 hf
    rw [hold f.slot (Nat.le_refl _)]
    exact hfull now hnow

/-- The test that is under way and was started last found a worker free while all the others were
under way. -/
theorem underWay_le (h : Greedy workers fs) (hnodup : (fs.map (·.slot)).Nodup) (now : Duration) :
    underWay fs now ≤ workers := by
  let atWork : Flight → Bool := fun f => f.started ≤ now && now < f.ends
  cases hlast : (fs.filter atWork).argmax (·.slot) with
  | none =>
    rw [List.argmax_eq_none] at hlast
    show fs.countP atWork ≤ workers
    rw [List.countP_eq_length_filter, hlast]
    exact Nat.zero_le _
  | some f =>
    obtain ⟨hf, hwork⟩ := List.mem_filter.1 (List.argmax_mem hlast)
    simp only [atWork, Bool.and_eq_true, decide_eq_true_eq] at hwork
    have hfree := h.free f hf
    let others := fs.filter fun g => g.slot < f.slot && f.started < g.ends
    have hothers : others.length = busy fs f.slot f.started := by
      rw [busy, List.countP_eq_length_filter]
    have hcount : underWay fs now ≤ (f.slot :: others.map (·.slot)).length := by
      refine countP_le_length hnodup fun g hg hgwork => ?_
      have hle : g.slot ≤ f.slot :=
        List.le_of_mem_argmax (List.mem_filter.2 ⟨hg, hgwork⟩) hlast
      rcases Nat.lt_or_eq_of_le hle with hlt | heq
      · refine List.mem_cons_of_mem _ (List.mem_map.2 ⟨g, List.mem_filter.2 ⟨hg, ?_⟩, rfl⟩)
        simp only [Bool.and_eq_true, decide_eq_true_eq] at hgwork ⊢
        exact ⟨hlt, Nat.lt_of_le_of_lt hwork.1 hgwork.2⟩
      · exact heq ▸ List.mem_cons_self ..
    rw [List.length_cons, List.length_map, hothers] at hcount
    omega

/-- All workers are at work up to the instant at which the first of the later tests was started,
and beyond that if `hlast` says so. -/
theorem le_underWay (h : Greedy workers fs)
    (hlast : (∀ f ∈ fs, f.started ≤ now) → workers ≤ busy fs place now) :
    workers ≤ underWay fs now := by
  let later : Flight → Bool := fun f => now < f.started
  cases hfirst : (fs.filter later).argmin (·.slot) with
  | none =>
    rw [List.argmin_eq_none, List.filter_eq_nil_iff] at hfirst
    have hstarted : ∀ f ∈ fs, f.started ≤ now := by simpa [later] using hfirst
    refine Nat.le_trans (hlast hstarted) (List.countP_mono_left fun f hf hbusy => ?_)
    simp only [Bool.and_eq_true, decide_eq_true_eq] at hbusy ⊢
    exact ⟨hstarted f hf, hbusy.2⟩
  | some f =>
    obtain ⟨hf, hlater⟩ := List.mem_filter.1 (List.argmin_mem hfirst)
    simp only [later, decide_eq_true_eq] at hlater
    refine Nat.le_trans (h.full f hf now hlater) (List.countP_mono_left fun g hg hbusy => ?_)
    simp only [Bool.and_eq_true, decide_eq_true_eq] at hbusy ⊢
    refine ⟨Nat.le_of_not_lt fun hglater => ?_, hbusy.2⟩
    -- A test in front of the first of the later ones is none of these.
    have hle : f.slot ≤ g.slot :=
      List.le_of_mem_argmin (List.mem_filter.2 ⟨hg, decide_eq_true hglater⟩) hfirst
    omega

end Greedy

end

end ResolverRace
