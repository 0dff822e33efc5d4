import ResolverRace.Race.Run

/-!
# Flights and their dispatch

What `takeFirst`, `Flight.launch` and `Race.dispatch` give.

* `takeFirst_perm`, `takeFirst_le` — the flight taken is one of the flights, and none ends before
  it.
* `Flight.launch_success` — a flight succeeds only by an answer within the bound.
* `Flight.Genuine` — a flight that tests the candidate at its place.
* `numbers_progressOf`, `results_progressOf` — what the reports of counted results tell.
* `dispatch_eq` — which flights a dispatch launches, and who is left waiting.
-/

namespace ResolverRace

namespace Params

theorem workers_le (p : Params) (total : Nat) : p.workers total ≤ total :=
  Nat.min_le_right _ _

theorem workers_pos (p : Params) {total : Nat} (h : 0 < total) : 0 < p.workers total := by
  simp only [workers, minConcurrency, maxConcurrency]
  omega

end Params

theorem takeFirst_eq_none {fs : List Flight} : takeFirst fs = none ↔ fs = [] := by
  cases fs with
  | nil => simp [takeFirst]
  | cons f fs =>
    simp only [takeFirst, reduceCtorEq, iff_false]
    split
    · simp
    · split <;> simp

theorem ne_nil_of_takeFirst {fs : List Flight} {p : Flight × List Flight}
    (h : takeFirst fs = some p) : fs ≠ [] := by
  rintro rfl
  cases h

theorem takeFirst_perm {fs rest : List Flight} {f : Flight} (h : takeFirst fs = some (f, rest)) :
    (f :: rest).Perm fs := by
  induction fs generalizing f rest with
  | nil => simp [takeFirst] at h
  | cons g gs ih =>
    simp only [takeFirst] at h
    split at h
    · rename_i hn
      cases h
      rw [takeFirst_eq_none.1 hn]
    · rename_i g' rest' hs
      split at h
      · cases h
        exact .refl _
      · cases h
        exact (List.Perm.swap g f rest').trans ((ih hs).cons g)

theorem takeFirst_le {fs rest : List Flight} {f : Flight} (h : takeFirst fs = some (f, rest)) :
    ∀ g ∈ fs, f.ends ≤ g.ends := by
  induction fs generalizing f rest with
  | nil => simp [takeFirst] at h
  | cons g gs ih =>
    simp only [takeFirst] at h
    intro x hx
    split at h
    · rename_i hn
      cases h
      rw [takeFirst_eq_none.1 hn] at hx
      obtain rfl := List.mem_singleton.1 hx
      exact Nat.le_refl _
    · rename_i g' rest' hs
      have hg' : ∀ y ∈ gs, g'.ends ≤ y.ends := ih hs
      split at h
      · rename_i hle
        cases h
        rcases List.mem_cons.1 hx with rfl | hx
        · exact Nat.le_refl _
        · exact Nat.le_trans hle (hg' x hx)
      · rename_i hle
        cases h
        rcases List.mem_cons.1 hx with rfl | hx
        · exact Nat.le_of_not_le hle
        · exact hg' x hx

namespace Flight

@[simp] theorem launch_slot (probe : Probe) (params : Params) (slot : Nat) (now : Duration)
    (c : Candidate) : (launch probe params slot now c).slot = slot := by
  simp only [launch]
  split
  · rfl
  · split <;> rfl

@[simp] theorem launch_candidate (probe : Probe) (params : Params) (slot : Nat) (now : Duration)
    (c : Candidate) : (launch probe params slot now c).candidate = c := by
  simp only [launch]
  split
  · rfl
  · split <;> rfl

@[simp] theorem launch_started (probe : Probe) (params : Params) (slot : Nat) (now : Duration)
    (c : Candidate) : (launch probe params slot now c).started = now := by
  simp only [launch]
  split
  · rfl
  · split <;> rfl

theorem started_le_launch_ends (probe : Probe) (params : Params) (slot : Nat) (now : Duration)
    (c : Candidate) : now ≤ (launch probe params slot now c).ends := by
  simp only [launch]
  split
  · exact Nat.le_add_right _ _
  · split <;> exact Nat.le_add_right _ _

/-- A flight succeeds only by an answer that the probe gives within the bound. -/
theorem launch_success {probe : Probe} {params : Params} {slot : Nat} {now latency : Duration}
    {c : Candidate} (h : (launch probe params slot now c).response = .success latency) :
    ∃ delay, probe c.address params.tunnel params.probeTimeout = ⟨some delay, .success latency⟩ ∧
      delay ≤ params.bound ∧ (launch probe params slot now c).ends = now + delay := by
  simp only [launch] at h ⊢
  split at h
  · cases h
  · rename_i delay ha
    split at h
    · rename_i hle
      refine ⟨delay, ?_, hle, ?_⟩
      · rw [← ha, ← h]
      · simp [hle]
    · cases h

/-- The flight tests the candidate at its place, as the probe answers. -/
def Genuine (probe : Probe) (params : Params) (candidates : List Candidate) (f : Flight) : Prop :=
  candidates[f.slot]? = some f.candidate ∧
    f = launch probe params f.slot f.started f.candidate

theorem Genuine.mem {probe : Probe} {params : Params} {candidates : List Candidate} {f : Flight}
    (h : f.Genuine probe params candidates) : f.candidate ∈ candidates :=
  List.mem_of_getElem? h.1

theorem launch_ends_le (probe : Probe) (params : Params) (slot : Nat) {now now' : Duration}
    (c : Candidate) (h : now ≤ now') :
    (launch probe params slot now c).ends ≤ (launch probe params slot now' c).ends := by
  simp only [launch]
  split
  · exact Nat.add_le_add_right h _
  · split <;> exact Nat.add_le_add_right h _

theorem launch_response_eq (probe : Probe) (params : Params) (slot : Nat) (now now' : Duration)
    (c : Candidate) :
    (launch probe params slot now c).response = (launch probe params slot now' c).response := by
  simp only [launch]
  split
  · rfl
  · split <;> rfl

section

variable {probe : Probe} {params : Params} {candidates : List Candidate} {f g : Flight}

theorem Genuine.candidate_eq (hf : f.Genuine probe params candidates)
    (hg : g.Genuine probe params candidates) (hslot : g.slot = f.slot) :
    g.candidate = f.candidate := by
  have hc : candidates[g.slot]? = some g.candidate := hg.1
  rw [hslot, hf.1] at hc
  exact (Option.some.inj hc).symm

theorem Genuine.ends_le (hf : f.Genuine probe params candidates)
    (hg : g.Genuine probe params candidates) (hslot : g.slot = f.slot)
    (hstart : g.started ≤ f.started) : g.ends ≤ f.ends := by
  rw [hf.2, hg.2, hslot, hf.candidate_eq hg hslot]
  exact launch_ends_le probe params f.slot f.candidate hstart

theorem Genuine.response_eq (hf : f.Genuine probe params candidates)
    (hg : g.Genuine probe params candidates) (hslot : g.slot = f.slot) :
    g.response = f.response := by
  rw [hf.2, hg.2, hslot, hf.candidate_eq hg hslot]
  exact launch_response_eq probe params f.slot g.started f.started f.candidate

theorem Genuine.started_le_ends (hf : f.Genuine probe params candidates) :
    f.started ≤ f.ends := by
  rw [hf.2, launch_started]
  exact started_le_launch_ends probe params f.slot f.started f.candidate

end

end Flight

/-! ## Progress -/

@[simp] theorem length_progressOf (total : Nat) (counted : List Flight) :
    (progressOf total counted).length = counted.length := by
  simp [progressOf]

theorem numbers_progressOf (total : Nat) (counted : List Flight) :
    (progressOf total counted).map (·.tested) =
      List.range' 1 (progressOf total counted).length := by
  rw [length_progressOf, progressOf, List.map_map, ← List.zipIdx_map_snd]
  rfl

theorem results_progressOf (total : Nat) (counted : List Flight) :
    (progressOf total counted).map (fun p => (p.candidate, p.response)) =
      counted.map fun f => (f.candidate, f.response) := by
  have hfst := congrArg (List.map fun f => (f.candidate, f.response))
    (List.zipIdx_map_fst 1 counted)
  rw [← hfst, progressOf, List.map_map, List.map_map]
  rfl

theorem total_of_mem_progressOf {total : Nat} {counted : List Flight} {p : Progress}
    (hp : p ∈ progressOf total counted) : p.total = total := by
  obtain ⟨_, _, rfl⟩ := List.mem_map.1 hp
  rfl

namespace Race

@[simp] theorem length_progress (r : Race) : r.progress.length = r.tested :=
  length_progressOf _ _

/-- The tests that were started, those with a counted result first. -/
def dispatched (r : Race) : List Flight := r.counted ++ r.flights

/-! ## Dispatch -/

/-- The flights of candidates that are taken one after the other at one instant. -/
def launchAll (probe : Probe) (params : Params) (now : Duration) (slot : Nat) :
    List Candidate → List Flight
  | [] => []
  | c :: cs => .launch probe params slot now c :: launchAll probe params now (slot + 1) cs

theorem dispatch_eq (probe : Probe) (params : Params) (now : Duration) (n slot : Nat)
    (waiting : List Candidate) :
    dispatch probe params now n slot waiting =
      (launchAll probe params now slot (waiting.take n), waiting.drop n) := by
  induction n generalizing slot waiting with
  | zero => simp [dispatch, launchAll]
  | succ n ih =>
    cases waiting with
    | nil => simp [dispatch, launchAll]
    | cons c cs => simp [dispatch, launchAll, ih]

@[simp] theorem length_launchAll (probe : Probe) (params : Params) (now : Duration) (slot : Nat)
    (cs : List Candidate) : (launchAll probe params now slot cs).length = cs.length := by
  induction cs generalizing slot with
  | nil => rfl
  | cons c cs ih => simp [launchAll, ih]

theorem slots_launchAll (probe : Probe) (params : Params) (now : Duration) (slot : Nat)
    (cs : List Candidate) :
    (launchAll probe params now slot cs).map (·.slot) = List.range' slot cs.length := by
  induction cs generalizing slot with
  | nil => rfl
  | cons c cs ih => simp [launchAll, ih, List.range'_succ]

theorem genuine_of_mem_launchAll {probe : Probe} {params : Params} {now : Duration}
    {candidates cs : List Candidate} {slot : Nat} {f : Flight}
    (hcs : cs <+: candidates.drop slot) (hf : f ∈ launchAll probe params now slot cs) :
    f.Genuine probe params candidates ∧ f.started = now := by
  induction cs generalizing slot with
  | nil => simp [launchAll] at hf
  | cons c cs ih =>
    obtain ⟨rest, hrest⟩ := hcs
    have hdrop : candidates.drop slot = c :: (cs ++ rest) := hrest.symm
    have hc : candidates[slot]? = some c := by
      rw [← List.head?_drop, hdrop, List.head?_cons]
    have hcs' : cs <+: candidates.drop (slot + 1) := by
      refine ⟨rest, ?_⟩
      rw [← List.tail_drop, hdrop, List.tail_cons]
    rcases List.mem_cons.1 hf with rfl | hf
    · simp [Flight.Genuine, hc]
    · exact ih hcs' hf

end Race
end ResolverRace
