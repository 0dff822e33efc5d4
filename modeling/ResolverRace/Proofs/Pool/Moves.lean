import ResolverRace.Proofs.Pool.Order

/-!
# Moves

Where no address comes twice, a move puts the entry of an address before or behind all others, and
the others keep their order. So of two moves of one address only the second one counts, and a move
to the front and a move to the back of two addresses can change places.

* `Pool.only`, `Pool.others` — the entry of an address, and the rest of the pool.
* `candidates_promote`, `candidates_demote` — a move in terms of these.
* `promote_promote_self`, `promote_demote_self`, `demote_demote_self`, `demote_promote_self`,
  `demote_promote_comm` — a move after another.
* `promote_moved` — where a promoted address goes, and that the others keep their order.
-/

namespace ResolverRace
namespace Pool

/-- The entries of the address. -/
def only (p : Pool) (a : Address) : List Candidate := p.candidates.filter (·.address = a)

/-- The entries of the other addresses, in their order. -/
def others (p : Pool) (a : Address) : List Candidate := p.candidates.filter (·.address ≠ a)

section

variable {p q : Pool} {a b : Address}

theorem eq_of_candidates (h : p.candidates = q.candidates) : p = q := by
  cases p
  cases q
  exact congrArg Pool.mk h

theorem nodup_of_perm (h : p.addresses.Nodup) (hperm : q.candidates.Perm p.candidates) :
    q.addresses.Nodup :=
  (hperm.map _).nodup_iff.2 h

theorem nodup_promote (h : p.addresses.Nodup) (a : Address) : (p.promote a).addresses.Nodup :=
  nodup_of_perm h (p.promote_perm a)

theorem nodup_demote (h : p.addresses.Nodup) (a : Address) : (p.demote a).addresses.Nodup :=
  nodup_of_perm h (p.demote_perm a)

theorem nodup_foldl_demote (h : p.addresses.Nodup) (as : List Address) :
    (as.foldl demote p).addresses.Nodup :=
  nodup_of_perm h (foldl_perm demote_perm as p)

/-! ## One move -/

/-- An address that is there has one entry, which is found, and the others are what is left without
it. -/
theorem cut_cases (h : p.addresses.Nodup) (a : Address) :
    (∃ c, p.find? a = some c ∧ p.only a = [c] ∧ p.others a = (p.erase a).candidates) ∨
      p.find? a = none ∧ p.only a = [] ∧ p.others a = p.candidates := by
  obtain ⟨cs⟩ := p
  rw [addresses] at h
  simp only [find?, erase, only, others]
  induction cs with
  | nil => exact .inr ⟨rfl, rfl, rfl⟩
  | cons c cs ih =>
    rw [List.map_cons, List.nodup_cons] at h
    by_cases hc : c.address = a
    · have hrest : ∀ d ∈ cs, d.address ≠ a :=
        fun d hd he => h.1 (List.mem_map.2 ⟨d, hd, he.trans hc.symm⟩)
      have honly : cs.filter (·.address = a) = [] := by simpa using hrest
      have hothers : cs.filter (·.address ≠ a) = cs := by simpa using hrest
      refine .inl ⟨c, ?_, ?_, ?_⟩
      · simp [hc]
      · rw [List.filter_cons, if_pos (by simpa using hc), honly]
      · rw [List.filter_cons, if_neg (by simpa using hc), hothers]
        simp [hc]
    · rcases ih h.2 with ⟨d, hfind, honly, hothers⟩ | ⟨hfind, honly, hothers⟩
      · refine .inl ⟨d, ?_, ?_, ?_⟩
        · rw [List.find?_cons_of_neg (by simpa using hc), hfind]
        · rw [List.filter_cons, if_neg (by simpa using hc), honly]
        · rw [List.filter_cons, if_pos (by simpa using hc), hothers,
            List.eraseP_cons_of_neg (by simpa using hc)]
      · refine .inr ⟨?_, ?_, ?_⟩
        · rw [List.find?_cons_of_neg (by simpa using hc), hfind]
        · rw [List.filter_cons, if_neg (by simpa using hc), honly]
        · rw [List.filter_cons, if_pos (by simpa using hc), hothers]

theorem candidates_promote (h : p.addresses.Nodup) (a : Address) :
    (p.promote a).candidates = p.only a ++ p.others a := by
  rw [promote]
  rcases cut_cases h a with ⟨c, hfind, honly, hothers⟩ | ⟨hfind, honly, hothers⟩
  · rw [hfind, honly, hothers]
    rfl
  · rw [hfind, honly, hothers, List.nil_append]

theorem candidates_demote (h : p.addresses.Nodup) (a : Address) :
    (p.demote a).candidates = p.others a ++ p.only a := by
  rw [demote]
  rcases cut_cases h a with ⟨c, hfind, honly, hothers⟩ | ⟨hfind, honly, hothers⟩
  · rw [hfind, honly, hothers]
  · rw [hfind, honly, hothers, List.append_nil]

/-- No move changes the entry of an address. -/
theorem only_of_perm (h : p.addresses.Nodup) (hperm : q.candidates.Perm p.candidates)
    (a : Address) : q.only a = p.only a := by
  have hfilter : (q.only a).Perm (p.only a) := hperm.filter _
  rcases cut_cases h a with ⟨c, _, honly, _⟩ | ⟨_, honly, _⟩
  · rw [honly] at hfilter ⊢
    exact List.perm_singleton.1 hfilter
  · rw [honly] at hfilter ⊢
    exact hfilter.eq_nil

theorem filter_only_self (p : Pool) (a : Address) :
    (p.only a).filter (·.address ≠ a) = [] := by
  simp [only]

theorem address_of_mem_only {c : Candidate} (hc : c ∈ p.only a) : c.address = a := by
  simpa [only] using (List.mem_filter.1 hc).2

theorem filter_only (p : Pool) (hne : a ≠ b) :
    (p.only a).filter (·.address ≠ b) = p.only a := by
  refine List.filter_eq_self.2 fun c hc => ?_
  simpa [address_of_mem_only hc] using hne

theorem filter_others_self (p : Pool) (a : Address) :
    (p.others a).filter (·.address ≠ a) = p.others a := by
  simp [others]

theorem filter_others_comm (p : Pool) (a b : Address) :
    (p.others a).filter (·.address ≠ b) = (p.others b).filter (·.address ≠ a) := by
  rw [others, others, List.filter_filter, List.filter_filter]
  exact List.filter_congr fun c _ => Bool.and_comm ..

theorem others_promote_self (h : p.addresses.Nodup) (a : Address) :
    (p.promote a).others a = p.others a := by
  rw [others, candidates_promote h, List.filter_append, filter_others_self, filter_only_self,
    List.nil_append]

theorem others_demote_self (h : p.addresses.Nodup) (a : Address) :
    (p.demote a).others a = p.others a := by
  rw [others, candidates_demote h, List.filter_append, filter_others_self, filter_only_self,
    List.append_nil]

theorem others_promote (h : p.addresses.Nodup) (hne : a ≠ b) :
    (p.promote a).others b = p.only a ++ (p.others a).filter (·.address ≠ b) := by
  rw [others, candidates_promote h, List.filter_append, filter_only p hne]

theorem others_demote (h : p.addresses.Nodup) (hne : a ≠ b) :
    (p.demote a).others b = (p.others a).filter (·.address ≠ b) ++ p.only a := by
  rw [others, candidates_demote h, List.filter_append, filter_only p hne]

/-! ## Two moves -/

theorem demote_demote_self (h : p.addresses.Nodup) (a : Address) :
    (p.demote a).demote a = p.demote a := by
  refine eq_of_candidates ?_
  rw [candidates_demote (nodup_demote h a), others_demote_self h,
    only_of_perm h (p.demote_perm a), candidates_demote h]

theorem promote_promote_self (h : p.addresses.Nodup) (a : Address) :
    (p.promote a).promote a = p.promote a := by
  refine eq_of_candidates ?_
  rw [candidates_promote (nodup_promote h a), others_promote_self h,
    only_of_perm h (p.promote_perm a), candidates_promote h]

theorem promote_demote_self (h : p.addresses.Nodup) (a : Address) :
    (p.demote a).promote a = p.promote a := by
  refine eq_of_candidates ?_
  rw [candidates_promote (nodup_demote h a), others_demote_self h,
    only_of_perm h (p.demote_perm a), candidates_promote h]

theorem demote_promote_self (h : p.addresses.Nodup) (a : Address) :
    (p.promote a).demote a = p.demote a := by
  refine eq_of_candidates ?_
  rw [candidates_demote (nodup_promote h a), others_promote_self h,
    only_of_perm h (p.promote_perm a), candidates_demote h]

/-- It does not matter which of two addresses is moved first if they go to different ends. -/
theorem demote_promote_comm (h : p.addresses.Nodup) (hne : a ≠ b) :
    (p.promote a).demote b = (p.demote b).promote a := by
  refine eq_of_candidates ?_
  rw [candidates_demote (nodup_promote h a), others_promote h hne,
    only_of_perm h (p.promote_perm a), candidates_promote (nodup_demote h b),
    others_demote h hne.symm, only_of_perm h (p.demote_perm b), filter_others_comm,
    List.append_assoc]

/-! ## To the front -/

/-- The entry of the address has moved before all others, whose order has stayed; with no entry of
it nothing has changed. -/
structure MovedToFront (p : Pool) (a : Address) (q : Pool) : Prop where
  absent : a ∉ p.addresses → q = p
  present : ∀ front c back, p.candidates = front ++ c :: back → c.address = a →
    (∀ d ∈ front, d.address ≠ a) → q.candidates = c :: (front ++ back)

theorem promote_moved (p : Pool) (a : Address) : p.MovedToFront a (p.promote a) := by
  constructor
  · intro ha
    rw [promote, find?_eq_none_iff.2 ha]
  · intro front c back hp hc hfront
    obtain ⟨hfind, herase⟩ := cut_of_split hp hc hfront
    simp only [promote, hfind, herase]

end

end Pool

end ResolverRace
