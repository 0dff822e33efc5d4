import ResolverRace.Proofs.Pool.Order
import ResolverRace.Session.Tracked

/-!
# What is remembered follows from what happened

The outcomes that were recorded since a tracker was opened on an empty store are its history, in
the order of their recording. What it remembers is told by the history alone, whatever became of
the store meanwhile: each outcome changes the memory before anything is stored.

* `SettledAt`, `LastSuccessAt` — the last outcome of an address, and the last success of all.
* `Standing.Reflects` — what is remembered after a history, with `Reflects.unique`.
* `Reflects.succeeded`, `Reflects.failed` — one more outcome.
* `Remembers` — the trackers with a history, with `Remembers.reflects`.
-/

namespace ResolverRace

/-- An outcome that is recorded. -/
inductive Verdict where
  | worked (a : Address)
  | failed (a : Address)
  deriving DecidableEq

def Verdict.address : Verdict → Address
  | .worked a => a
  | .failed a => a

/-! ## Places in a history -/

/-- Whatever came after place `i` has the property. -/
def After (h : List Verdict) (i : Nat) (P : Verdict → Prop) : Prop :=
  ∀ j v, i < j → h[j]? = some v → P v

/-- The outcome at place `i` is `v`, and the last one of its address. -/
def SettledAt (h : List Verdict) (v : Verdict) (i : Nat) : Prop :=
  h[i]? = some v ∧ After h i (·.address ≠ v.address)

/-- The outcome at place `i` is a success of `a`, and the last success of all. -/
def LastSuccessAt (h : List Verdict) (a : Address) (i : Nat) : Prop :=
  h[i]? = some (.worked a) ∧ After h i fun v => ∀ b, v ≠ .worked b

section

variable {h : List Verdict} {v w : Verdict} {i : Nat} {a b : Address}

theorem lt_length_of_at (hv : h[i]? = some v) : i < h.length :=
  (List.getElem?_eq_some_iff.1 hv).1

theorem at_concat :
    (h ++ [w])[i]? = some v ↔ h[i]? = some v ∨ (i = h.length ∧ w = v) := by
  rcases Nat.lt_trichotomy i h.length with hi | rfl | hi
  · rw [List.getElem?_append_left hi]
    have hne : i ≠ h.length := Nat.ne_of_lt hi
    simp [hne]
  · simp
  · have hne : i ≠ h.length := Nat.ne_of_gt hi
    have hnone : h[i]? = none := List.getElem?_eq_none (Nat.le_of_lt hi)
    have hlength : (h ++ [w]).length ≤ i := by simpa using Nat.succ_le_of_lt hi
    have hnone' : (h ++ [w])[i]? = none := List.getElem?_eq_none hlength
    simp [hne, hnone, hnone']

theorem after_concat {P : Verdict → Prop} (hi : i < h.length) :
    After (h ++ [w]) i P ↔ After h i P ∧ P w := by
  constructor
  · intro hP
    refine ⟨fun j v hj hv => hP j v hj (at_concat.2 (.inl hv)), ?_⟩
    exact hP h.length w hi (at_concat.2 (.inr ⟨rfl, rfl⟩))
  · rintro ⟨hP, hw⟩ j v hj hv
    rcases at_concat.1 hv with hv | ⟨_, rfl⟩
    · exact hP j v hj hv
    · exact hw

theorem after_newest {P : Verdict → Prop} : After (h ++ [w]) h.length P := by
  intro j v hj hv
  rcases at_concat.1 hv with hv | ⟨rfl, _⟩
  · exact absurd (lt_length_of_at hv) (Nat.lt_asymm hj)
  · exact absurd hj (Nat.lt_irrefl _)

theorem settledAt_concat : SettledAt (h ++ [w]) v i ↔
    (SettledAt h v i ∧ w.address ≠ v.address) ∨ (i = h.length ∧ w = v) := by
  constructor
  · rintro ⟨hv, hafter⟩
    rcases at_concat.1 hv with hv | hnew
    · obtain ⟨hold, hw⟩ := (after_concat (lt_length_of_at hv)).1 hafter
      exact .inl ⟨⟨hv, hold⟩, hw⟩
    · exact .inr hnew
  · rintro (⟨⟨hv, hold⟩, hw⟩ | ⟨rfl, rfl⟩)
    · exact ⟨at_concat.2 (.inl hv), (after_concat (lt_length_of_at hv)).2 ⟨hold, hw⟩⟩
    · exact ⟨at_concat.2 (.inr ⟨rfl, rfl⟩), after_newest⟩

theorem lastSuccessAt_concat_worked :
    LastSuccessAt (h ++ [.worked b]) a i ↔ i = h.length ∧ b = a := by
  constructor
  · rintro ⟨ha, hafter⟩
    rcases at_concat.1 ha with ha | ⟨hi, hb⟩
    · exact absurd rfl (((after_concat (lt_length_of_at ha)).1 hafter).2 b)
    · exact ⟨hi, Verdict.worked.inj hb⟩
  · rintro ⟨rfl, rfl⟩
    exact ⟨at_concat.2 (.inr ⟨rfl, rfl⟩), after_newest⟩

theorem lastSuccessAt_concat_failed :
    LastSuccessAt (h ++ [.failed b]) a i ↔ LastSuccessAt h a i := by
  constructor
  · rintro ⟨ha, hafter⟩
    rcases at_concat.1 ha with ha | ⟨_, hb⟩
    · exact ⟨ha, ((after_concat (lt_length_of_at ha)).1 hafter).1⟩
    · cases hb
  · rintro ⟨ha, hafter⟩
    refine ⟨at_concat.2 (.inl ha), (after_concat (lt_length_of_at ha)).2 ⟨hafter, ?_⟩⟩
    intro c hc
    cases hc

end

/-! ## What is remembered after a history -/

namespace Standing

/-- The history tells what is remembered: the last success of all, unless that address failed
later, and the addresses whose last outcome is a failure, in the order of these failures. -/
structure Reflects (t : Standing) (h : List Verdict) : Prop where
  last : ∀ a, t.last = some a ↔ ∃ i, LastSuccessAt h a i ∧ After h i (· ≠ .failed a)
  demoted : ∀ a, a ∈ t.demoted ↔ ∃ i, SettledAt h (.failed a) i
  nodup : t.demoted.Nodup
  ordered : t.demoted.Pairwise fun a b =>
    ∀ i j, SettledAt h (.failed a) i → SettledAt h (.failed b) j → i < j

variable {t u : Standing} {h : List Verdict} {a : Address}

theorem reflects_empty : Standing.empty.Reflects [] where
  last a := by
    constructor
    · intro hlast
      cases hlast
    · rintro ⟨i, ⟨hi, _⟩, _⟩
      cases hi
  demoted a := by
    constructor
    · intro hmem
      cases hmem
    · rintro ⟨i, hi, _⟩
      cases hi
  nodup := List.nodup_nil
  ordered := .nil

/-- The last winner is not demoted: it would have failed before it won, and then its last outcome
is no failure, or after, and then it is forgotten. -/
theorem Reflects.not_mem_demoted (hr : t.Reflects h) (ha : t.last = some a) : a ∉ t.demoted := by
  intro hmem
  obtain ⟨i, ⟨hwin, _⟩, hkept⟩ := (hr.last a).1 ha
  obtain ⟨j, hfail, hsettled⟩ := (hr.demoted a).1 hmem
  rcases Nat.lt_trichotomy i j with hij | rfl | hij
  · exact hkept j _ hij hfail rfl
  · rw [hwin] at hfail
    cases hfail
  · exact hsettled i _ hij hwin rfl

/-- Nothing else is remembered after the same history. -/
theorem Reflects.unique (ht : t.Reflects h) (hu : u.Reflects h) : t = u := by
  have hlast : t.last = u.last := by
    refine Option.ext fun a => ?_
    rw [ht.last a, hu.last a]
  have hperm : t.demoted.Perm u.demoted := by
    refine (List.perm_ext_iff_of_nodup ht.nodup hu.nodup).2 fun a => ?_
    rw [ht.demoted a, hu.demoted a]
  have hdemoted : t.demoted = u.demoted := by
    refine hperm.eq_of_pairwise (fun a b ha hb hab hba => ?_) ht.ordered hu.ordered
    obtain ⟨i, hi⟩ := (ht.demoted a).1 ha
    obtain ⟨j, hj⟩ := (hu.demoted b).1 hb
    exact absurd (hab i j hi hj) (Nat.lt_asymm (hba j i hj hi))
  cases t
  cases u
  cases hlast
  cases hdemoted
  rfl

theorem Reflects.succeeded (hr : t.Reflects h) (a : Address) :
    (t.succeeded a).Reflects (h ++ [.worked a]) where
  last b := by
    constructor
    · intro hb
      cases hb
      exact ⟨h.length, lastSuccessAt_concat_worked.2 ⟨rfl, rfl⟩, after_newest⟩
    · rintro ⟨i, hlast, _⟩
      obtain ⟨_, rfl⟩ := lastSuccessAt_concat_worked.1 hlast
      rfl
  demoted b := by
    rw [mem_demoted_succeeded, hr.demoted b]
    constructor
    · rintro ⟨⟨i, hi⟩, hne⟩
      exact ⟨i, settledAt_concat.2 (.inl ⟨hi, Ne.symm hne⟩)⟩
    · rintro ⟨i, hi⟩
      rcases settledAt_concat.1 hi with ⟨hi, hne⟩ | ⟨_, hw⟩
      · exact ⟨⟨i, hi⟩, Ne.symm hne⟩
      · cases hw
  nodup := hr.nodup.filter _
  ordered := by
    have hold : ∀ b i, SettledAt (h ++ [.worked a]) (.failed b) i → SettledAt h (.failed b) i := by
      intro b i hi
      rcases settledAt_concat.1 hi with ⟨hi, _⟩ | ⟨_, hw⟩
      · exact hi
      · cases hw
    refine (hr.ordered.filter _).imp fun {b c} hbc i j hi hj => ?_
    exact hbc i j (hold b i hi) (hold c j hj)

theorem Reflects.failed (hr : t.Reflects h) (a : Address) :
    (t.failed a).Reflects (h ++ [.failed a]) where
  last b := by
    have hkept : (t.failed a).last = some b ↔ t.last = some b ∧ a ≠ b := by
      by_cases ha : t.last = some a
      · simp [Standing.failed, ha]
      · simp only [Standing.failed, if_neg ha]
        refine ⟨fun hb => ⟨hb, ?_⟩, And.left⟩
        rintro rfl
        exact ha hb
    rw [hkept, hr.last b]
    constructor
    · rintro ⟨⟨i, hlast, hafter⟩, hne⟩
      refine ⟨i, lastSuccessAt_concat_failed.2 hlast, ?_⟩
      refine (after_concat (lt_length_of_at hlast.1)).2 ⟨hafter, fun hb => ?_⟩
      exact hne (Verdict.failed.inj hb)
    · rintro ⟨i, hlast, hafter⟩
      have hlast := lastSuccessAt_concat_failed.1 hlast
      obtain ⟨hafter, hnew⟩ := (after_concat (lt_length_of_at hlast.1)).1 hafter
      refine ⟨⟨i, hlast, hafter⟩, ?_⟩
      rintro rfl
      exact hnew rfl
  demoted b := by
    rw [mem_demoted_failed, hr.demoted b]
    by_cases hb : b = a
    · subst hb
      refine ⟨fun _ => ⟨h.length, settledAt_concat.2 (.inr ⟨rfl, rfl⟩)⟩, fun _ => .inr rfl⟩
    · constructor
      · rintro (⟨i, hi⟩ | rfl)
        · exact ⟨i, settledAt_concat.2 (.inl ⟨hi, Ne.symm hb⟩)⟩
        · exact absurd rfl hb
      · rintro ⟨i, hi⟩
        rcases settledAt_concat.1 hi with ⟨hi, _⟩ | ⟨_, hw⟩
        · exact .inl ⟨i, hi⟩
        · exact absurd (Verdict.failed.inj hw).symm hb
  nodup := by
    refine List.nodup_append.2 ⟨hr.nodup.filter _, by simp, ?_⟩
    intro b hb c hc
    rw [List.mem_singleton.1 hc]
    simpa using (List.mem_filter.1 hb).2
  ordered := by
    -- Whoever was demoted before keeps its place; the newest failure comes after all of them.
    have hold : ∀ b ∈ t.demoted.filter (· ≠ a), ∀ i,
        SettledAt (h ++ [.failed a]) (.failed b) i → SettledAt h (.failed b) i := by
      intro b hb i hi
      have hne : b ≠ a := by simpa using (List.mem_filter.1 hb).2
      rcases settledAt_concat.1 hi with ⟨hi, _⟩ | ⟨_, hw⟩
      · exact hi
      · exact absurd (Verdict.failed.inj hw).symm hne
    refine List.pairwise_append.2 ⟨?_, List.pairwise_singleton .., ?_⟩
    · refine (hr.ordered.filter _).imp_of_mem fun {b c} hb hc hbc i j hi hj => ?_
      exact hbc i j (hold b hb i hi) (hold c hc j hj)
    · intro b hb c hc i j hi hj
      rw [List.mem_singleton.1 hc] at hj
      have hlt : i < h.length := lt_length_of_at (hold b hb i hi).1
      rcases settledAt_concat.1 hj with ⟨_, hne⟩ | ⟨rfl, _⟩
      · exact absurd rfl hne
      · exact hlt

theorem load_of_nothing {s : Store} (hs : ∀ key, s.get key = .ok none) : load s = .ok .empty := by
  simp only [load, hs, bind, Except.bind, pure, Except.pure]
  rfl

theorem recordSuccess_fst (t : Standing) (s : Store) (a : Address) :
    (t.recordSuccess s a).1 = t.succeeded a := by
  rw [recordSuccess]
  dsimp only
  split <;> rfl

end Standing

/-! ## Trackers with a history -/

/-- The tracker was opened on an empty store, and these outcomes have been recorded since. -/
inductive Remembers : List Verdict → Tracked → Prop where
  | opened {s : Store} {t : Tracked} : (∀ key, s.get key = .ok none) → Tracked.opened s = .ok t →
      Remembers [] t
  /-- Between the outcomes the session goes on, and the store becomes any other, with any values
  and refusing any accesses. -/
  | meanwhile {h : List Verdict} {t : Tracked} (session : Session) (store : Store) :
      Remembers h t → Remembers h { t with session := session, store := store }
  | worked {h : List Verdict} {t : Tracked} (a : Address) : Remembers h t →
      Remembers (h ++ [.worked a]) (t.recordSuccess a).1
  | failed {h : List Verdict} {t : Tracked} (a : Address) (p : Pool) : Remembers h t →
      Remembers (h ++ [.failed a]) (t.recordFailureIn a p).1

theorem Remembers.reflects {h : List Verdict} {t : Tracked} (hr : Remembers h t) :
    t.standing.Reflects h := by
  induction hr with
  | opened hs hopened =>
    rw [Tracked.opened, Standing.load_of_nothing hs] at hopened
    cases hopened
    exact Standing.reflects_empty
  | meanwhile session store _ ih => exact ih
  | @worked h t a _ ih =>
    have hstanding : (t.recordSuccess a).1.standing = t.standing.succeeded a :=
      Standing.recordSuccess_fst ..
    rw [hstanding]
    exact ih.succeeded a
  | failed a p _ ih => exact ih.failed a

/-- The history tells what is remembered, the same for every tracker that has it; the last winner is
never demoted; and a failure moves the resolver to the back of the pool, stored or not. -/
theorem remembers_history {h : List Verdict} {t : Tracked} (hr : Remembers h t) :
    t.standing.Reflects h ∧ (∀ u, Remembers h u → u.standing = t.standing) ∧
      (∀ a, t.standing.last = some a → a ∉ t.standing.demoted) ∧
      ∀ a (p : Pool), p.MovedToBack a (t.recordFailureIn a p).2.1 := by
  refine ⟨hr.reflects, fun u hu => hu.reflects.unique hr.reflects, ?_, ?_⟩
  · intro a ha
    exact hr.reflects.not_mem_demoted ha
  · intro a p
    exact p.demote_moved a

theorem remembers_refused_writes :
    let one : Address := ⟨.ip (.v4 ⟨1, 1, 1, 1⟩), 53⟩
    let two : Address := ⟨.name "ns.example", 53⟩
    let readOnly : Store :=
      { Store.inMemory .empty ⟨[], []⟩ with refusals := [⟨.put, none⟩, ⟨.remove, none⟩] }
    let won := (⟨.idle, .empty, readOnly⟩ : Tracked).recordSuccess one
    let lost := won.1.recordFailureIn one ⟨[⟨one, .builtin⟩, ⟨two, .builtin⟩]⟩
    won.2 = .error (.store (.refused .put Store.lastKey)) ∧
      lost.2.2 = .error (.store (.refused .remove Store.lastKey)) ∧
      lost.2.1 = ⟨[⟨two, .builtin⟩, ⟨one, .builtin⟩]⟩ ∧
      lost.1.standing = ⟨none, [one]⟩ ∧
      lost.1.standing.Reflects [.worked one, .failed one] := by
  intro one two readOnly won lost
  have hnothing : ∀ key, readOnly.get key = .ok none := fun key => rfl
  have hopened : Remembers [] ⟨.idle, .empty, readOnly⟩ := .opened hnothing rfl
  have hlost : Remembers [.worked one, .failed one] lost.1 := .failed one _ (.worked one hopened)
  exact ⟨rfl, rfl, by decide, by decide, (remembers_history hlost).1⟩

end ResolverRace
