import ResolverRace.Proofs.Race.Discipline

/-!
# One worker

With one worker a race is a plain loop. It tests the candidates one after another and moves a clock
on by what each test takes, up to the bound. The race tells the same as the loop; but at the very
instant at which it ends its worker can be ahead of the supervisor, and have called candidates that
the loop does not come to.

* `Account` — what is told of a race afterwards; `scan` — the loop.
* `Flight.chain` — tests of which each one starts when the one before it ends.
* `scanFrom_chain` — the loop goes through the failures of a chain.
* `Engine.Single` — a race with one worker that waits has started a chain; `Acts.single`.
* `Single.scan_counted`, `Single.scan_next` — the loop at the results of such a race.
* `Engine.Agrees`, `Single.agrees` — the decision of the race is that of the loop.
* `Run.agrees_with_scan` — the race tells what the loop tells, but for the calls at its last instant.
* `ahead_of_scan` — races that have called more, and less, at that instant.
-/

namespace ResolverRace

/-- What is told of a race afterwards. -/
structure Account where
  report : Report
  progress : List Progress
  /-- The candidates that were called, in their order, each with the instant of its call. -/
  calls : List (Candidate × Duration)
  deriving DecidableEq

namespace Answer

/-- How long somebody waits for the answer who gives up at the bound. -/
def lasting (a : Answer) (bound : Duration) : Duration := (a.after.map (min · bound)).getD bound

/-- What counts as the response: an answer at the very bound is in time, a later one is an
overrun. -/
def verdict (a : Answer) (params : Params) : Response :=
  if a.after.any (· ≤ params.bound) then a.response
  else .failure s!"probe exceeded {wholeMillis params.probeTimeout}ms"

end Answer

namespace Flight

section

variable (probe : Probe) (params : Params) (slot : Nat) (now : Duration) (c : Candidate)

theorem launch_ends : (launch probe params slot now c).ends =
    now + (probe c.address params.tunnel params.probeTimeout).lasting params.bound := by
  simp only [launch, Answer.lasting]
  cases (probe c.address params.tunnel params.probeTimeout).after with
  | none => rfl
  | some delay =>
    by_cases hle : delay ≤ params.bound
    · simp [hle]
    · simp [hle, Nat.min_eq_right (Nat.le_of_not_le hle)]

theorem launch_response : (launch probe params slot now c).response =
    (probe c.address params.tunnel params.probeTimeout).verdict params := by
  simp only [launch, Answer.verdict]
  cases (probe c.address params.tunnel params.probeTimeout).after with
  | none => rfl
  | some delay => by_cases hle : delay ≤ params.bound <;> simp [hle]

end

end Flight

/-! ## The loop -/

/-- The loop from the instant `clock` on, with what was reported and called before. -/
def scanFrom (probe : Probe) (params : Params) (total : Nat) (clock : Duration)
    (progress : List Progress) (calls : List (Candidate × Duration)) : List Candidate → Account
  | [] => ⟨⟨.exhausted, progress.length, total, clock⟩, progress, calls⟩
  | c :: rest =>
    let answer := probe c.address params.tunnel params.probeTimeout
    let calls := calls ++ [(c, clock)]
    let clock := clock + answer.lasting params.bound
    if params.sessionTimeout ≤ clock then
      ⟨⟨.timedOut, progress.length, total, params.sessionTimeout⟩, progress, calls⟩
    else
      let response := answer.verdict params
      let progress := progress ++ [⟨progress.length + 1, total, c, response⟩]
      match response with
      | .success latency => ⟨⟨.found c latency, progress.length, total, clock⟩, progress, calls⟩
      | .failure _ => scanFrom probe params total clock progress calls rest

/-- The loop over all candidates. -/
def scan (probe : Probe) (params : Params) (candidates : List Candidate) : Account :=
  if candidates.isEmpty then ⟨⟨.noCandidates, 0, 0, 0⟩, [], []⟩
  else scanFrom probe params candidates.length 0 [] [] candidates

/-- The calls of some tests. -/
def callsOf (fs : List Flight) : List (Candidate × Duration) :=
  fs.map fun f => (f.candidate, f.started)

/-- The end of the last of some tests, or the instant `now` if there is none. -/
def endOf (now : Duration) (fs : List Flight) : Duration := fs.foldl (fun _ f => f.ends) now

/-- Tests of which each one starts when the one before it ends. -/
def Flight.chain (probe : Probe) (params : Params) (slot : Nat) (now : Duration) :
    List Candidate → List Flight
  | [] => []
  | c :: cs =>
    let f := launch probe params slot now c
    f :: chain probe params (slot + 1) f.ends cs

section

variable {probe : Probe} {params : Params} {cs : List Candidate} {c : Candidate} {slot : Nat}
  {now : Duration}

theorem progressOf_concat (total : Nat) (counted : List Flight) (f : Flight) :
    progressOf total (counted ++ [f]) =
      progressOf total counted ++
        [⟨(progressOf total counted).length + 1, total, f.candidate, f.response⟩] := by
  rw [length_progressOf]
  simp [progressOf, List.zipIdx_append, Nat.add_comm]

theorem endOf_concat (now : Duration) (fs : List Flight) (f : Flight) :
    endOf now (fs ++ [f]) = f.ends := by
  simp [endOf]

theorem endOf_of_forall (now : Duration) {fs : List Flight} {deadline : Duration} (hne : fs ≠ [])
    (h : ∀ f ∈ fs, f.ends < deadline) : endOf now fs < deadline := by
  rw [← List.dropLast_concat_getLast hne, endOf_concat]
  exact h _ (List.getLast_mem hne)

/-! ## Chains -/

namespace Flight

theorem chain_concat (cs : List Candidate) (c : Candidate) :
    chain probe params slot now (cs ++ [c]) = chain probe params slot now cs ++
      [launch probe params (slot + cs.length) (endOf now (chain probe params slot now cs)) c] := by
  induction cs generalizing slot now with
  | nil => rfl
  | cons d cs ih => simp [chain, ih, endOf, Nat.add_assoc, Nat.add_comm 1]

theorem chain_take (n : Nat) (cs : List Candidate) :
    chain probe params slot now (cs.take n) = (chain probe params slot now cs).take n := by
  induction cs generalizing slot now n with
  | nil => simp [chain]
  | cons c cs ih =>
    cases n with
    | zero => rfl
    | succ n => simp [chain, ih]

theorem le_started_of_mem_chain {f : Flight} (hf : f ∈ chain probe params slot now cs) :
    now ≤ f.started := by
  induction cs generalizing slot now with
  | nil => cases hf
  | cons c cs ih =>
    rcases List.mem_cons.1 hf with rfl | hf
    · simp
    · exact Nat.le_trans (started_le_launch_ends ..) (ih hf)

theorem chain_pairwise (probe : Probe) (params : Params) (slot : Nat) (now : Duration)
    (cs : List Candidate) :
    (chain probe params slot now cs).Pairwise fun f g => f.ends ≤ g.started := by
  induction cs generalizing slot now with
  | nil => exact .nil
  | cons c cs ih => exact .cons (fun g hg => le_started_of_mem_chain hg) (ih ..)

/-- The test after the first ones of a chain. -/
theorem chain_split {done more : List Flight} {f : Flight}
    (h : chain probe params slot now cs = done ++ (f :: more)) :
    ∃ cs', cs.drop done.length = f.candidate :: cs' ∧
      f = launch probe params (slot + done.length) (endOf now done) f.candidate := by
  induction done generalizing cs slot now with
  | nil =>
    cases cs with
    | nil => cases h
    | cons c cs =>
      obtain ⟨hf, _⟩ := List.cons.inj h
      rw [← hf]
      exact ⟨cs, by simp, by simp [endOf]⟩
  | cons g done ih =>
    cases cs with
    | nil => cases h
    | cons c cs =>
      obtain ⟨hg, hrest⟩ := List.cons.inj h
      obtain ⟨cs', hdrop, hf⟩ := ih hrest
      refine ⟨cs', hdrop, ?_⟩
      rw [hg] at hf
      rw [List.length_cons, Nat.add_comm done.length, ← Nat.add_assoc]
      exact hf

end Flight

/-- A turn of the loop, in terms of the test. -/
theorem scanFrom_cons (total slot : Nat) (now : Duration) (done : List Flight) (c : Candidate)
    (cs : List Candidate) :
    scanFrom probe params total now (progressOf total done) (callsOf done) (c :: cs) =
      let f := Flight.launch probe params slot now c
      if params.sessionTimeout ≤ f.ends then
        ⟨⟨.timedOut, done.length, total, params.sessionTimeout⟩, progressOf total done,
          callsOf (done ++ [f])⟩
      else
        match f.response with
        | .success latency =>
          ⟨⟨.found c latency, (done ++ [f]).length, total, f.ends⟩, progressOf total (done ++ [f]),
            callsOf (done ++ [f])⟩
        | .failure _ =>
          scanFrom probe params total f.ends (progressOf total (done ++ [f]))
            (callsOf (done ++ [f])) cs := by
  simp only [scanFrom, progressOf_concat, Flight.launch_ends, Flight.launch_response,
    Flight.launch_candidate, length_progressOf, callsOf, List.map_append, List.map_singleton,
    Flight.launch_started, List.length_append, List.length_singleton]

/-- The loop goes through the failures at the front of a chain. -/
theorem scanFrom_chain {total : Nat} (done : List Flight) {failed more : List Flight}
    (hchain : Flight.chain probe params slot now cs = failed ++ more)
    (hfailed : ∀ f ∈ failed, f.response.isSuccess = false ∧ f.ends < params.sessionTimeout) :
    scanFrom probe params total now (progressOf total done) (callsOf done) cs =
      scanFrom probe params total (endOf now failed) (progressOf total (done ++ failed))
        (callsOf (done ++ failed)) (cs.drop failed.length) := by
  induction failed generalizing cs slot now done with
  | nil => simp [endOf]
  | cons f failed ih =>
    cases cs with
    | nil => cases hchain
    | cons c cs =>
      obtain ⟨hf, hrest⟩ := List.cons.inj hchain
      obtain ⟨hfailure, htime⟩ := hfailed f (List.mem_cons_self ..)
      have hnext := ih (done ++ [f]) (hf ▸ hrest) fun g hg =>
        hfailed g (List.mem_cons_of_mem f hg)
      rw [scanFrom_cons total slot, hf]
      simp only [Nat.not_le.2 htime, if_false]
      cases hresponse : f.response with
      | success latency =>
        rw [hresponse] at hfailure
        cases hfailure
      | failure reason =>
        rw [List.append_assoc] at hnext
        exact hnext

end

namespace Engine

/-- A race with one worker that waits: its tests are a chain, counted from the front. -/
structure Single (probe : Probe) (params : Params) (candidates : List Candidate) (e : Engine) :
    Prop where
  isOpen : e.Open probe params candidates
  chain : e.calls = Flight.chain probe params 0 0 (candidates.take e.calls.length)
  parts : e.calls = e.counted ++ (e.sent ++ e.testing)
  one : e.free + e.testing.length ≤ 1
  /-- The worker has become free at the end of its last test. -/
  ready : e.testing = [] → e.clock = endOf 0 e.calls

section

variable {probe : Probe} {params : Params} {candidates : List Candidate} {e e' p q : Engine}
  {m : Move} {ms : List Move} {begunAt : Duration} {outcome : Outcome}

/-- The worker takes the next candidate at the end of the last test. -/
theorem Single.take (h : e.Single probe params candidates) (hbound : params.HasBound) {free : Nat}
    {c : Candidate} {queue : List Candidate} (hfree : e.free = free + 1)
    (hqueue : e.queue = c :: queue)
    (hopen : ({ e with
        queue := queue, free := free, testing := e.testing ++ [e.next probe c],
        calls := e.calls ++ [e.next probe c] } : Engine).Open probe params candidates) :
    ({ e with
        queue := queue, free := free, testing := e.testing ++ [e.next probe c],
        calls := e.calls ++ [e.next probe c] } : Engine).Single probe params candidates := by
  have hone := h.one
  have hnone : e.testing = [] := List.eq_nil_of_length_eq_zero (by omega)
  have hplace := (h.isOpen.sound.next_candidate hbound hqueue).1
  have hlt : e.calls.length < candidates.length := (List.getElem?_eq_some_iff.1 hplace).1
  refine ⟨hopen, ?_, ?_, ?_, fun hempty => ?_⟩
  · have htake : candidates.take (e.calls.length + 1) = candidates.take e.calls.length ++ [c] := by
      rw [List.take_add_one, hplace]
      rfl
    show e.calls ++ [_] = _
    rw [List.length_append, List.length_singleton, htake, Flight.chain_concat, ← h.chain,
      ← h.ready hnone, next, h.isOpen.sound.params_eq, List.length_take,
      Nat.min_eq_left (Nat.le_of_lt hlt), Nat.zero_add]
  · show e.calls ++ [_] = _
    rw [h.parts, hnone]
    simp
  · show free + (e.testing ++ [_]).length ≤ 1
    rw [hnone]
    simp
    omega
  · exact absurd hempty (by simp)

/-- The worker hands in its result. -/
theorem Single.send (h : e.Single probe params candidates) {i : Nat} {f : Flight}
    (hf : e.testing[i]? = some f) (hends : f.ends ≤ e.clock)
    (hopen : ({ e with
        testing := e.testing.eraseIdx i, sent := e.sent ++ [f], free := e.free + 1 } :
      Engine).Open probe params candidates) :
    ({ e with
        testing := e.testing.eraseIdx i, sent := e.sent ++ [f], free := e.free + 1 } :
      Engine).Single probe params candidates := by
  have hone := h.one
  have hlen := (testing_perm hf).length_eq
  simp only [List.length_cons] at hlen
  have hnone : e.testing.eraseIdx i = [] := List.eq_nil_of_length_eq_zero (by omega)
  have htesting : e.testing = [f] := by
    have hperm := testing_perm hf
    rw [hnone] at hperm
    exact List.perm_singleton.1 hperm.symm
  refine ⟨hopen, h.chain, ?_, ?_, fun _ => ?_⟩
  · show e.calls = e.counted ++ ((e.sent ++ [f]) ++ e.testing.eraseIdx i)
    rw [hnone, List.append_nil, h.parts, htesting]
  · show e.free + 1 + (e.testing.eraseIdx i).length ≤ 1
    omega
  · show e.clock = endOf 0 e.calls
    rw [h.parts, htesting, ← List.append_assoc, endOf_concat]
    exact Nat.le_antisymm (h.isOpen.sound.coming f (List.mem_of_getElem? hf)) hends

theorem Acts.single (ha : e.Acts probe m e') (hbound : params.HasBound)
    (hw : e.supervisor = .waiting) (hw' : e'.supervisor = .waiting)
    (h : e.Single probe params candidates) : e'.Single probe params candidates := by
  have hopen := ha.open hbound hw hw' h.isOpen
  have hone := h.one
  cases ha with
  | take hfree hqueue => exact h.take hbound hfree hqueue hopen
  | breakDown _ _ _ hno => exact absurd (h.isOpen.sound.params_eq ▸ hbound) hno
  | @leave free hfree =>
    have hless : free + e.testing.length ≤ 1 := by omega
    exact ⟨hopen, h.chain, h.parts, hless, h.ready⟩
  | send hf hends => exact h.send hf hends hopen
  | discard _ _ hno => exact absurd hw hno
  | fail hsent =>
    refine ⟨hopen, h.chain, ?_, h.one, h.ready⟩
    have hparts := h.parts
    rw [hsent] at hparts
    simpa [counting] using hparts
  | decide _ hdecides =>
    rw [hdecides.supervisor] at hw'
    cases hw'
  | cancel => exact ⟨hopen, h.chain, h.parts, h.one, h.ready⟩
  | pass _ hsleeps =>
    exact ⟨hopen, h.chain, h.parts, h.one, fun hempty => absurd hempty (hsleeps.2.2 hw).2.2.2⟩

/-- The tests of all candidates, one after the other: first those that were counted, then those that
were not. -/
theorem Single.chain_eq (h : p.Single probe params candidates) :
    ∃ more, Flight.chain probe params 0 0 candidates =
      p.counted ++ ((p.sent ++ p.testing) ++ more) := by
  have hcalls : p.calls = (Flight.chain probe params 0 0 candidates).take p.calls.length :=
    h.chain.trans (Flight.chain_take _ _)
  refine ⟨(Flight.chain probe params 0 0 candidates).drop p.calls.length, ?_⟩
  rw [← List.append_assoc, ← h.parts]
  calc Flight.chain probe params 0 0 candidates
      = (Flight.chain probe params 0 0 candidates).take p.calls.length ++
          (Flight.chain probe params 0 0 candidates).drop p.calls.length :=
        (List.take_append_drop ..).symm
    _ = p.calls ++ (Flight.chain probe params 0 0 candidates).drop p.calls.length := by
        rw [← hcalls]

/-- The loop goes through the results that were counted. -/
theorem Single.scan_counted (h : p.Single probe params candidates) :
    scanFrom probe params p.total 0 [] [] candidates =
      scanFrom probe params p.total (endOf 0 p.counted) (progressOf p.total p.counted)
        (callsOf p.counted) (candidates.drop p.counted.length) := by
  obtain ⟨more, hchain⟩ := h.chain_eq
  exact scanFrom_chain [] hchain h.isOpen.failed

/-- The next turn of the loop is about the first of the tests that were not counted. -/
theorem Single.scan_next (h : p.Single probe params candidates) {f : Flight} {rest : List Flight}
    (hrest : p.sent ++ p.testing = f :: rest) :
    ∃ cs, scanFrom probe params p.total 0 [] [] candidates =
      if params.sessionTimeout ≤ f.ends then
        ⟨⟨.timedOut, p.counted.length, p.total, params.sessionTimeout⟩,
          progressOf p.total p.counted, callsOf (p.counted ++ [f])⟩
      else
        match f.response with
        | .success latency =>
          ⟨⟨.found f.candidate latency, (p.counted ++ [f]).length, p.total, f.ends⟩,
            progressOf p.total (p.counted ++ [f]), callsOf (p.counted ++ [f])⟩
        | .failure _ =>
          scanFrom probe params p.total f.ends (progressOf p.total (p.counted ++ [f]))
            (callsOf (p.counted ++ [f])) cs := by
  obtain ⟨more, hchain⟩ := h.chain_eq
  rw [hrest] at hchain
  obtain ⟨cs, hdrop, hf⟩ := Flight.chain_split hchain
  refine ⟨cs, ?_⟩
  rw [h.scan_counted, hdrop, scanFrom_cons p.total (0 + p.counted.length), ← hf]

/-- What the worker has started after a test was started when that test had ended. -/
theorem Single.ends_le_started (h : p.Single probe params candidates) {f : Flight}
    {rest : List Flight} (hrest : p.sent ++ p.testing = f :: rest) :
    ∀ g ∈ rest, f.ends ≤ g.started := by
  have hpairwise := Flight.chain_pairwise probe params 0 0 (candidates.take p.calls.length)
  rw [← h.chain, h.parts, hrest, List.pairwise_append, List.pairwise_cons] at hpairwise
  exact hpairwise.2.1.1

/-- The race tells what the loop tells. At the instant of its end its worker can have called more
candidates; and a race without any time can be over before its worker has called the first one. -/
structure Agrees (params : Params) (account : Account) (e : Engine) (report : Report) : Prop where
  report : report = account.report
  progress : e.progress = account.progress
  calls : (∃ late, callsOf e.calls = account.calls ++ late ∧
      ∀ call ∈ late, call.2 = account.report.elapsed) ∨
    params.sessionTimeout = 0 ∧ e.calls = []

theorem Agrees.keeps {account : Account} {report : Report} (h : p.Agrees params account report)
    (hk : p.Keeps e) : e.Agrees params account report := by
  refine ⟨h.report, ?_, ?_⟩
  · rw [Engine.progress, hk.total, hk.counted]
    exact h.progress
  · rw [hk.calls]
    exact h.calls

/-- The calls after the test with which the loop ends, if that ends now or later. -/
theorem Single.late_calls (h : p.Single probe params candidates) {f : Flight} {rest : List Flight}
    (hrest : p.sent ++ p.testing = f :: rest) (hends : p.clock ≤ f.ends) :
    ∃ late, callsOf p.calls = callsOf (p.counted ++ [f]) ++ late ∧
      ∀ call ∈ late, call.2 = p.clock := by
  refine ⟨callsOf rest, ?_, fun call hcall => ?_⟩
  · rw [h.parts, hrest]
    simp [callsOf]
  · obtain ⟨g, hg, rfl⟩ := List.mem_map.1 hcall
    have hmem : g ∈ p.calls := by
      rw [h.parts, hrest]
      exact List.mem_append_right _ (List.mem_cons_of_mem f hg)
    exact Nat.le_antisymm (h.isOpen.sound.begun g hmem)
      (Nat.le_trans hends (h.ends_le_started hrest g hg))

theorem Single.agrees_found (h : p.Single probe params candidates) {f : Flight}
    {rest : List Flight} {latency : Duration} {cancels : Bool} (hsent : p.sent = f :: rest)
    (hclock : p.clock < params.sessionTimeout) (hf : f.response = .success latency)
    (hq : q = (p.counting f rest cancels).conclude (.found f.candidate latency)) :
    q.Agrees params (scanFrom probe params p.total 0 [] [] candidates)
      (q.reportOf (.found f.candidate latency) p.clock) := by
  have hrest : p.sent ++ p.testing = f :: (rest ++ p.testing) := by rw [hsent]; rfl
  have harrived : f.ends = p.clock := h.isOpen.arrived f (hsent ▸ List.mem_cons_self ..)
  obtain ⟨cs, hscan⟩ := h.scan_next hrest
  rw [harrived, if_neg (Nat.not_le.2 hclock), hf] at hscan
  rw [hscan, hq]
  exact ⟨rfl, rfl, .inl (h.late_calls hrest (Nat.le_of_eq harrived.symm))⟩

theorem Single.agrees_timedOut (h : p.Single probe params candidates)
    (hlate : params.sessionTimeout ≤ p.clock) :
    (p.conclude .timedOut).Agrees params (scanFrom probe params p.total 0 [] [] candidates)
      (p.reportOf .timedOut p.clock) := by
  have hclock : p.clock = params.sessionTimeout := Nat.le_antisymm h.isOpen.inTime hlate
  cases hrest : p.sent ++ p.testing with
  | cons f rest =>
    have hends : p.clock ≤ f.ends := by
      have hmem : f ∈ p.sent ++ p.testing := hrest ▸ List.mem_cons_self ..
      rcases List.mem_append.1 hmem with hf | hf
      · exact Nat.le_of_eq (h.isOpen.arrived f hf).symm
      · exact h.isOpen.sound.coming f hf
    obtain ⟨cs, hscan⟩ := h.scan_next hrest
    rw [if_pos (hclock ▸ hends), ← hclock] at hscan
    rw [hscan]
    exact ⟨rfl, rfl, .inl (h.late_calls hrest hends)⟩
  | nil =>
    -- The worker is free, so it is not yet past the end of its last test.
    have hcalls : p.calls = p.counted := by rw [h.parts, hrest, List.append_nil]
    have hready := h.ready (List.append_eq_nil_iff.1 hrest).2
    rw [hcalls] at hready
    have hnone : p.counted = [] := by
      by_contra hsome
      have hless := endOf_of_forall 0 hsome fun f hf => (h.isOpen.failed f hf).2
      rw [← hready, hclock] at hless
      exact Nat.lt_irrefl _ hless
    rw [hnone] at hready
    have hzero : params.sessionTimeout = 0 := hclock.symm.trans hready
    cases hcandidates : candidates with
    | nil =>
      have hfew := h.isOpen.late hlate
      rw [hcandidates] at hfew
      exact absurd hfew (Nat.not_lt_zero _)
    | cons c cs =>
      have hscan : scanFrom probe params p.total 0 [] [] (c :: cs) =
          ⟨⟨.timedOut, 0, p.total, 0⟩, [], [(c, 0)]⟩ := by
        simp [scanFrom, hzero]
      rw [hscan]
      refine ⟨?_, ?_, .inr ⟨hzero, hcalls.trans hnone⟩⟩
      · rw [reportOf, hnone, hready]
        rfl
      · rw [Engine.progress, conclude, hnone]
        rfl

theorem Single.agrees_exhausted (h : p.Single probe params candidates)
    (hall : p.counted.length = candidates.length) (hdeserted : p.IsDeserted) :
    (p.conclude .exhausted).Agrees params (scanFrom probe params p.total 0 [] [] candidates)
      (p.reportOf .exhausted p.clock) := by
  obtain ⟨hsent, htesting, _⟩ := hdeserted
  have hcalls : p.calls = p.counted := by
    rw [h.parts, hsent, htesting, List.nil_append, List.append_nil]
  have hready := h.ready htesting
  rw [hcalls] at hready
  rw [h.scan_counted, hall, List.drop_length, scanFrom, length_progressOf, ← hready]
  refine ⟨rfl, rfl, .inl ⟨[], ?_, fun _ hcall => absurd hcall List.not_mem_nil⟩⟩
  simp [conclude, hcalls]

/-- However the supervisor decides a race that is not cancelled, the loop tells the same. -/
theorem Single.agrees (h : p.Single probe params candidates) (hbound : params.HasBound)
    (hw : p.supervisor = .waiting) (hd : p.Decides m q outcome) (hq : q.cancelled = false) :
    q.Agrees params (scanFrom probe params p.total 0 [] [] candidates)
      (q.reportOf outcome p.clock) := by
  cases hd with
  | found hsent _ hclock hf =>
    exact h.agrees_found hsent (h.isOpen.sound.params_eq ▸ hclock) hf rfl
  | cancelled hc =>
    rw [show p.cancelled = false from hq] at hc
    cases hc
  | timedOut _ hlate => exact h.agrees_timedOut (h.isOpen.sound.params_eq ▸ hlate)
  | exhausted hc _ hdeserted =>
    exact h.agrees_exhausted (h.isOpen.counted_of_deserted hbound hw hc hdeserted) hdeserted

end

end Engine
end ResolverRace
