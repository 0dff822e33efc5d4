import ResolverRace.Race.Interleaving

/-!
# The moves of a race

Everything that a move can do, and what a run of moves keeps once the race is decided.

* `Engine.Decides` — the ways in which the supervisor decides a race.
* `Engine.Acts`, `Engine.move_iff` — everything that a move can do.
* `Engine.Keeps` — what stays as it was once a race is decided; `Run.keeps`.
* `Engine.Run.decision` — a run that comes to an outcome has passed through a decision.
* `Engine.run_of_play`, `Engine.exists_run_of_play` — what is played is a run.
-/

namespace ResolverRace

/-- The probe is asked with the tunnel and the time budget of the race, and with nothing else. -/
theorem Flight.launch_congr {probe other : Probe} {params : Params}
    (h : ∀ a, other a params.tunnel params.probeTimeout =
      probe a params.tunnel params.probeTimeout) :
    Flight.launch other params = Flight.launch probe params := by
  funext slot now c
  simp only [Flight.launch, h]

namespace Engine

/-- The race once the result `f` is counted. -/
def counting (e : Engine) (f : Flight) (rest : List Flight) (cancels : Bool) : Engine :=
  { e with sent := rest, counted := e.counted ++ [f], cancelled := cancels }

/-- How the supervisor decides a race that is waiting. -/
inductive Decides (e : Engine) : Move → Engine → Outcome → Prop where
  | found {f : Flight} {rest : List Flight} {latency : Duration} {cancels : Bool} :
      e.sent = f :: rest → e.cancelled = false → e.clock < e.params.sessionTimeout →
      f.response = .success latency →
      Decides e (.count cancels)
        ((e.counting f rest cancels).conclude (.found f.candidate latency))
        (.found f.candidate latency)
  | cancelled : e.cancelled = true → Decides e .close (e.conclude .cancelled) .cancelled
  | timedOut : e.cancelled = false → e.params.sessionTimeout ≤ e.clock →
      Decides e .close (e.conclude .timedOut) .timedOut
  | exhausted : e.cancelled = false → e.clock < e.params.sessionTimeout → e.IsDeserted →
      Decides e .close (e.conclude .exhausted) .exhausted

/-- The test of the next candidate. -/
def next (probe : Probe) (e : Engine) (c : Candidate) : Flight :=
  .launch probe e.params e.calls.length e.clock c

/-- Everything that a move can do. -/
inductive Acts (probe : Probe) (e : Engine) : Move → Engine → Prop where
  | take {free : Nat} {c : Candidate} {queue : List Candidate} :
      e.free = free + 1 → e.queue = c :: queue → ¬e.IsStopped → e.params.HasBound →
      Acts probe e .take { e with
        queue := queue, free := free, testing := e.testing ++ [e.next probe c],
        calls := e.calls ++ [e.next probe c] }
  | breakDown {free : Nat} {c : Candidate} {queue : List Candidate} :
      e.free = free + 1 → e.queue = c :: queue → ¬e.IsStopped → ¬e.params.HasBound →
      Acts probe e .take { e with queue := queue, free := free }
  | leave {free : Nat} : e.free = free + 1 → e.IsStopped ∨ e.queue = [] →
      Acts probe e .leave { e with free := free }
  | send {i : Nat} {f : Flight} : e.testing[i]? = some f → f.ends ≤ e.clock →
      e.supervisor = .waiting →
      Acts probe e (.send i) { e with
        testing := e.testing.eraseIdx i, sent := e.sent ++ [f], free := e.free + 1 }
  | discard {i : Nat} {f : Flight} : e.testing[i]? = some f → f.ends ≤ e.clock →
      e.supervisor ≠ .waiting → Acts probe e (.send i) { e with testing := e.testing.eraseIdx i }
  | fail {f : Flight} {rest : List Flight} {cancels : Bool} :
      e.sent = f :: rest → e.supervisor = .waiting → e.cancelled = false →
      e.clock < e.params.sessionTimeout → f.response.isSuccess = false →
      Acts probe e (.count cancels) (e.counting f rest cancels)
  | decide {m : Move} {e' : Engine} {outcome : Outcome} : e.supervisor = .waiting →
      e.Decides m e' outcome → Acts probe e m e'
  | cancel : ¬e.IsStopped → Acts probe e .cancel { e with cancelled := true }
  | pass {now : Duration} : e.clock < now → e.SleepsUntil now →
      Acts probe e (.pass now) { e with clock := now }

section

variable {probe : Probe} {e e' : Engine} {m : Move}

theorem not_isStopped (hw : e.supervisor = .waiting) (hc : e.cancelled = false) :
    ¬e.IsStopped := by
  rintro (hstopped | ⟨_, _, hd⟩)
  · rw [hc] at hstopped
    cases hstopped
  · rw [hw] at hd
    cases hd

/-- A race begins with all its workers if there is something to be done. -/
theorem begin_eq {params : Params} {candidates : List Candidate} {begunAt : Duration}
    (hne : candidates ≠ []) (hdeadline : params.HasDeadline begunAt) :
    begin params candidates begunAt false =
      { untouched params candidates .waiting false with
        free := params.workers candidates.length } := by
  rw [begin, if_neg hne, if_neg Bool.false_ne_true, if_pos hdeadline]

/-! ## Everything that a move can do -/

theorem acts_take (h : e.take? probe = some e') : e.Acts probe .take e' := by
  simp only [take?] at h
  split at h
  · rename_i free c queue hfree hqueue
    split at h
    · cases h
    · rename_i hstopped
      split at h
      · rename_i hbound
        cases h
        exact .take hfree hqueue hstopped hbound
      · rename_i hbound
        cases h
        exact .breakDown hfree hqueue hstopped hbound
  · cases h

theorem acts_leave (h : e.leave? = some e') : e.Acts probe .leave e' := by
  simp only [leave?] at h
  split at h
  · rename_i hleave
    cases h
    obtain ⟨free, hfree⟩ := Nat.exists_eq_succ_of_ne_zero (Nat.pos_iff_ne_zero.1 hleave.1)
    rw [hfree]
    exact .leave hfree hleave.2
  · cases h

theorem acts_send {i : Nat} (h : e.send? i = some e') : e.Acts probe (.send i) e' := by
  simp only [send?] at h
  split at h
  · cases h
  · rename_i f hf
    split at h
    · cases h
    · rename_i hends
      split at h
      · rename_i hwaiting
        cases h
        exact .send hf (Nat.le_of_not_lt hends) hwaiting
      · rename_i hwaiting
        cases h
        exact .discard hf (Nat.le_of_not_lt hends) hwaiting

theorem acts_count {cancels : Bool} (h : e.count? cancels = some e') :
    e.Acts probe (.count cancels) e' := by
  simp only [count?] at h
  split at h
  · cases h
  · rename_i f rest hsent
    split at h
    · rename_i hready
      obtain ⟨hwaiting, hcancelled, hclock⟩ := hready
      cases hf : f.response with
      | success latency =>
        rw [hf] at h
        cases h
        exact .decide hwaiting (.found hsent hcancelled hclock hf)
      | failure reason =>
        rw [hf] at h
        cases h
        exact .fail hsent hwaiting hcancelled hclock (by rw [hf]; rfl)
    · cases h

theorem acts_close (h : e.close? = some e') : e.Acts probe .close e' := by
  simp only [close?] at h
  split at h
  · cases h
  · rename_i hwaiting
    have hwaiting' : e.supervisor = .waiting := Decidable.not_not.1 hwaiting
    split at h
    · rename_i hcancelled
      cases h
      exact .decide hwaiting' (.cancelled hcancelled)
    · rename_i hcancelled
      have hcancelled' : e.cancelled = false := Bool.eq_false_iff.2 hcancelled
      split at h
      · rename_i hlate
        cases h
        exact .decide hwaiting' (.timedOut hcancelled' hlate)
      · rename_i hlate
        split at h
        · rename_i hdeserted
          cases h
          exact .decide hwaiting' (.exhausted hcancelled' (Nat.lt_of_not_le hlate) hdeserted)
        · cases h

theorem acts_of_move (h : e.move? probe m = some e') : e.Acts probe m e' := by
  cases m with
  | take => exact acts_take h
  | leave => exact acts_leave h
  | send i => exact acts_send h
  | count cancels => exact acts_count h
  | close => exact acts_close h
  | cancel =>
    simp only [move?, cancel?] at h
    split at h
    · cases h
    · rename_i hstopped
      cases h
      exact .cancel hstopped
  | pass now =>
    simp only [move?, pass?] at h
    split at h
    · rename_i hpass
      cases h
      exact .pass hpass.1 hpass.2
    · cases h

theorem Decides.move {outcome : Outcome} (h : e.Decides m e' outcome)
    (hwaiting : e.supervisor = .waiting) : e.move? probe m = some e' := by
  cases h with
  | found hsent hcancelled hclock hf =>
    simp [move?, count?, hsent, hwaiting, hcancelled, hclock, hf, counting]
  | cancelled hcancelled => simp [move?, close?, hwaiting, hcancelled]
  | timedOut hcancelled hlate => simp [move?, close?, hwaiting, hcancelled, hlate]
  | exhausted hcancelled hclock hdeserted =>
    simp [move?, close?, hwaiting, hcancelled, Nat.not_le.2 hclock, hdeserted]

/-- The moves that can be made, and what becomes of the race by them. -/
theorem move_iff : e.move? probe m = some e' ↔ e.Acts probe m e' := by
  refine ⟨acts_of_move, fun h => ?_⟩
  cases h with
  | take hfree hqueue hstopped hbound =>
    simp [move?, take?, hfree, hqueue, hstopped, hbound, next]
  | breakDown hfree hqueue hstopped hbound =>
    simp [move?, take?, hfree, hqueue, hstopped, hbound]
  | leave hfree hleave => simp [move?, leave?, hfree, hleave]
  | send hf hends hwaiting => simp [move?, send?, hf, Nat.not_lt.2 hends, hwaiting]
  | discard hf hends hwaiting => simp [move?, send?, hf, Nat.not_lt.2 hends, hwaiting]
  | @fail f _ _ hsent hwaiting hcancelled hclock hf =>
    cases hresponse : f.response with
    | success latency =>
      rw [hresponse] at hf
      cases hf
    | failure reason =>
      simp [move?, count?, hsent, hwaiting, hcancelled, hclock, hresponse, counting]
  | decide hwaiting hdecides => exact hdecides.move hwaiting
  | cancel hstopped => simp [move?, cancel?, hstopped]
  | pass hclock hsleeps => simp [move?, pass?, hclock, hsleeps]

/-! ## Once a race is decided -/

/-- A decided race stays as it is, but for what its workers have under way. -/
structure Keeps (e e' : Engine) : Prop where
  total : e'.total = e.total
  calls : e'.calls = e.calls
  sent : e'.sent = e.sent
  counted : e'.counted = e.counted
  supervisor : e'.supervisor = e.supervisor
  cancelled : e'.cancelled = e.cancelled

theorem Keeps.refl (e : Engine) : e.Keeps e := ⟨rfl, rfl, rfl, rfl, rfl, rfl⟩

theorem Keeps.trans {e'' : Engine} (h₁ : e.Keeps e') (h₂ : e'.Keeps e'') : e.Keeps e'' :=
  ⟨h₂.total.trans h₁.total, h₂.calls.trans h₁.calls, h₂.sent.trans h₁.sent,
    h₂.counted.trans h₁.counted, h₂.supervisor.trans h₁.supervisor,
    h₂.cancelled.trans h₁.cancelled⟩

variable {outcome : Outcome} {elapsed : Duration}

theorem Acts.keeps (h : e.Acts probe m e') (hd : e.supervisor = .decided outcome elapsed) :
    e.Keeps e' := by
  have hstopped : e.IsStopped := .inr ⟨outcome, elapsed, hd⟩
  have hnot : e.supervisor ≠ .waiting := by
    rw [hd]
    exact Supervisor.noConfusion
  cases h with
  | leave | discard | pass => exact ⟨rfl, rfl, rfl, rfl, rfl, rfl⟩
  | take _ _ hgo | breakDown _ _ hgo | cancel hgo => exact absurd hstopped hgo
  | send _ _ hwaiting | fail _ hwaiting | decide hwaiting => exact absurd hwaiting hnot

theorem Decides.supervisor (h : e.Decides m e' outcome) :
    e'.supervisor = .decided outcome e.clock := by
  cases h <;> rfl

/-- A move leaves the supervisor as it is, or decides the race. -/
theorem Acts.supervisor (h : e.Acts probe m e') :
    e'.supervisor = e.supervisor ∨
      e.supervisor = .waiting ∧ ∃ outcome, e.Decides m e' outcome := by
  cases h with
  | decide hwaiting hdecides => exact .inr ⟨hwaiting, _, hdecides⟩
  | _ => exact .inl rfl

/-- Who waits after a move has waited before it. -/
theorem Acts.waiting (h : e.Acts probe m e') (hw : e'.supervisor = .waiting) :
    e.supervisor = .waiting := by
  rcases h.supervisor with hsame | ⟨hwaiting, _⟩
  · exact hsame ▸ hw
  · exact hwaiting

/-! ## Runs -/

namespace Run

variable {ms ms' : List Move} {e'' : Engine}

theorem single (h : e.move? probe m = some e') : Run probe e [m] e' := .snoc .nil h

theorem trans (h₁ : Run probe e ms e') (h₂ : Run probe e' ms' e'') :
    Run probe e (ms ++ ms') e'' := by
  induction h₂ with
  | nil =>
    rw [List.append_nil]
    exact h₁
  | snoc _ hm ih =>
    rw [← List.append_assoc]
    exact .snoc ih hm

theorem keeps (h : Run probe e ms e') (hd : e.supervisor = .decided outcome elapsed) :
    e.Keeps e' := by
  induction h with
  | nil => exact .refl e
  | snoc _ hm ih => exact ih.trans ((acts_of_move hm).keeps (ih.supervisor.trans hd))

/-- A race that has broken down never comes to an outcome. -/
theorem broken (h : Run probe e ms e') (hb : e.supervisor = .broken) :
    e'.supervisor = .broken := by
  induction h with
  | nil => exact hb
  | snoc _ hm ih =>
    rcases (acts_of_move hm).supervisor with hsame | ⟨hwaiting, _⟩
    · exact hsame.trans ih
    · rw [ih] at hwaiting
      cases hwaiting

/-- Who waits has waited all along. -/
theorem waiting_first (h : Run probe e ms e') (hw : e'.supervisor = .waiting) :
    e.supervisor = .waiting := by
  induction h with
  | nil => exact hw
  | snoc _ hm ih => exact ih ((acts_of_move hm).waiting hw)

/-- What every move between two states that wait keeps holds as long as a race waits. -/
theorem preserves {P : Engine → Prop} (h : Run probe e ms e') (hw : e'.supervisor = .waiting)
    (hstep : ∀ {e₁ m e₂}, Acts probe e₁ m e₂ → e₁.supervisor = .waiting →
      e₂.supervisor = .waiting → P e₁ → P e₂) (h0 : P e) : P e' := by
  induction h with
  | nil => exact h0
  | snoc _ hm ih =>
    have hacts := acts_of_move hm
    have hw₁ := hacts.waiting hw
    exact hstep hacts hw₁ hw (ih hw₁)

/-- A race that was waiting and has an outcome has passed through its decision. -/
theorem decision (h : Run probe e ms e') (hw : e.supervisor = .waiting)
    (hd : e'.supervisor = .decided outcome elapsed) :
    ∃ ms₁ p m q, Run probe e ms₁ p ∧ p.supervisor = .waiting ∧ p.Decides m q outcome ∧
      elapsed = p.clock ∧ q.Keeps e' := by
  induction h with
  | nil =>
    rw [hw] at hd
    cases hd
  | @snoc ms m e₁ e₂ hrun hm ih =>
    rcases (acts_of_move hm).supervisor with hsame | ⟨hwaiting, outcome', hdecides⟩
    · have hd₁ : e₁.supervisor = .decided outcome elapsed := hsame ▸ hd
      obtain ⟨ms₁, p, m', q, hp, hpw, hq, helapsed, hkeeps⟩ := ih hd₁
      exact ⟨ms₁, p, m', q, hp, hpw, hq, helapsed, hkeeps.trans ((acts_of_move hm).keeps hd₁)⟩
    · have hq := hdecides.supervisor
      rw [hd] at hq
      cases hq
      exact ⟨ms, e₁, m, e₂, hrun, hwaiting, hdecides, rfl, .refl e₂⟩

end Run

/-- What is played is a run. -/
theorem run_of_play {ms : List Move} (h : play probe ms e = some e') : Run probe e ms e' := by
  induction ms generalizing e with
  | nil =>
    cases h
    exact .nil
  | cons m ms ih =>
    simp only [play, List.foldlM_cons, Option.bind_eq_bind, Option.bind_eq_some_iff] at h
    obtain ⟨e₁, hm, hrest⟩ := h
    exact (Run.single hm).trans (ih hrest)

/-- What is found out of a race by playing it. -/
theorem exists_run_of_play (probe : Probe) (e : Engine) (ms : List Move) (found : Engine → Bool)
    (h : (play probe ms e).any found = true) : ∃ e', Run probe e ms e' ∧ found e' = true := by
  obtain ⟨e', hplay, hfound⟩ := (Option.any_eq_true _ _).1 h
  exact ⟨e', run_of_play hplay, hfound⟩

end

end Engine
end ResolverRace
