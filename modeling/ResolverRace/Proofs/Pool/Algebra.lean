import ResolverRace.Proofs.Pool.Sequences

/-!
# The algebra of moves

In a pool in which no address comes twice the last move of an address decides where it goes. So a
move undoes whatever moves of the same address came before it, moves of two addresses to different
ends can change places, and of many moves to one end it is enough to keep the last one of each
address. All this holds whether the addresses are in the pool or not.

* `dedup_filter_append` — what is dropped before a later occurrence is not among the last
  occurrences.
* `foldl_demote_congr`, `foldl_promote_congr` — moves to one end with the same last occurrences.
* `Standing.apply_failed` — what is remembered of a failure orders a pool as the move at once does.
* `change_algebra` — the laws.
-/

namespace ResolverRace

/-- Dropping occurrences of an item that comes again keeps the last occurrences. -/
theorem dedup_filter_append {α : Type} [DecidableEq α] (front back : List α) (a : α) :
    (front.filter (· ≠ a) ++ a :: back).dedup = (front ++ a :: back).dedup := by
  induction front with
  | nil => rfl
  | cons x xs ih =>
    by_cases hx : x = a
    · have hagain : a ∈ xs ++ a :: back := by simp
      rw [List.filter_cons_of_neg (by simpa using hx), ih, List.cons_append, hx,
        List.dedup_cons_of_mem hagain]
    · have hmem : x ∈ xs.filter (· ≠ a) ++ a :: back ↔ x ∈ xs ++ a :: back := by simp [hx]
      rw [List.filter_cons_of_pos (by simpa using hx), List.cons_append, List.cons_append,
        List.dedup_cons, List.dedup_cons, ih]
      simp only [hmem]

namespace Pool

section

variable {p : Pool} {as bs : List Address}

theorem without_congr (p : Pool) (h : as.dedup = bs.dedup) : p.without as = p.without bs := by
  have hmem (a : Address) : a ∈ as ↔ a ∈ bs := by
    rw [← List.mem_dedup, h, List.mem_dedup]
  simp only [without, hmem]

theorem foldl_demote_congr (hnodup : p.addresses.Nodup) (h : as.dedup = bs.dedup) :
    as.foldl demote p = bs.foldl demote p := by
  refine eq_of_candidates ?_
  rw [candidates_foldl_demote hnodup, candidates_foldl_demote hnodup, h, without_congr p h]

theorem foldl_promote_congr (hnodup : p.addresses.Nodup) (h : as.dedup = bs.dedup) :
    as.foldl promote p = bs.foldl promote p := by
  refine eq_of_candidates ?_
  rw [candidates_foldl_promote hnodup, candidates_foldl_promote hnodup, h, without_congr p h]

end

end Pool

/-- The pool that was ordered before a failure is ordered by moving the resolver that failed. -/
theorem Standing.apply_failed {p : Pool} (h : p.addresses.Nodup) (t : Standing) (a : Address) :
    (t.failed a).apply p = (t.apply p).demote a := by
  have hdemoted : (t.failed a).demoted.foldl Pool.demote p =
      (t.demoted.foldl Pool.demote p).demote a := by
    -- The address is taken out of the list before it is put at the end, where it counts.
    have hlast := dedup_filter_append t.demoted [] a
    exact (Pool.foldl_demote_congr h hlast).trans List.foldl_append
  have hnodup : (t.demoted.foldl Pool.demote p).addresses.Nodup := Pool.nodup_foldl_demote h _
  rw [apply, apply, hdemoted]
  by_cases hlast : t.last = some a
  · simp only [failed, hlast, if_true]
    exact (Pool.demote_promote_self hnodup a).symm
  · simp only [failed, hlast, if_false]
    cases hl : t.last with
    | none => rfl
    | some b =>
      have hne : b ≠ a := fun he => hlast (hl.trans (congrArg some he))
      exact (Pool.demote_promote_comm hnodup hne).symm

namespace Pool

/-- Of two moves of one address in a row the second one decides, two addresses go to different ends
in either order, and of moves to one end the earlier ones of an address can be dropped, for one
address or for all of them. -/
theorem change_algebra {p : Pool} (h : p.addresses.Nodup) :
    let after (changes : List Change) : Pool := changes.foldl change p
    (∀ a, after [.promote a, .promote a] = after [.promote a] ∧
      after [.demote a, .demote a] = after [.demote a] ∧
      after [.demote a, .promote a] = after [.promote a] ∧
      after [.promote a, .demote a] = after [.demote a]) ∧
    (∀ a b, a ≠ b → after [.promote a, .demote b] = after [.demote b, .promote a]) ∧
    (∀ front a back,
      after ((front ++ a :: back).map .demote) =
        after ((front.filter (· ≠ a) ++ a :: back).map .demote) ∧
      after ((front ++ a :: back).map .promote) =
        after ((front.filter (· ≠ a) ++ a :: back).map .promote)) ∧
    ∀ as : List Address, after (as.map .demote) = after (as.dedup.map .demote) ∧
      after (as.map .promote) = after (as.dedup.map .promote) := by
  intro after
  have hsame (a : Address) : after [.promote a, .promote a] = after [.promote a] ∧
      after [.demote a, .demote a] = after [.demote a] ∧
      after [.demote a, .promote a] = after [.promote a] ∧
      after [.promote a, .demote a] = after [.demote a] := by
    simp only [after, List.foldl_cons, List.foldl_nil, change_promote, change_demote]
    exact ⟨promote_promote_self h a, demote_demote_self h a, promote_demote_self h a,
      demote_promote_self h a⟩
  have hdemoted {as bs : List Address} (hlast : as.dedup = bs.dedup) :
      after (as.map .demote) = after (bs.map .demote) := by
    simp only [after, foldl_change_demote]
    exact foldl_demote_congr h hlast
  have hpromoted {as bs : List Address} (hlast : as.dedup = bs.dedup) :
      after (as.map .promote) = after (bs.map .promote) := by
    simp only [after, foldl_change_promote]
    exact foldl_promote_congr h hlast
  refine ⟨hsame, ?_, ?_, ?_⟩
  · intro a b hne
    simp only [after, List.foldl_cons, List.foldl_nil, change_promote, change_demote]
    exact demote_promote_comm h hne
  · intro front a back
    have hlast := (dedup_filter_append front back a).symm
    exact ⟨hdemoted hlast, hpromoted hlast⟩
  · intro as
    have hlast : as.dedup = as.dedup.dedup := List.dedup_idem.symm
    exact ⟨hdemoted hlast, hpromoted hlast⟩

/-- Twice the same address is demoted, once with one that is not there in between, and the first
address is sent to the back and brought to the front again. -/
theorem change_algebra_of_repeated :
    let one : Candidate := ⟨⟨.name "one", 53⟩, .builtin⟩
    let two : Candidate := ⟨⟨.name "two", 53⟩, .builtin⟩
    let three : Candidate := ⟨⟨.name "three", 53⟩, .builtin⟩
    let gone : Address := ⟨.name "gone", 53⟩
    let p : Pool := ⟨[one, two, three]⟩
    let after (changes : List Change) : Pool := changes.foldl change p
    p.addresses.Nodup ∧
      after [.demote two.address, .demote gone, .demote one.address, .demote two.address] =
        ⟨[three, one, two]⟩ ∧
      after [.promote gone, .demote two.address] = ⟨[one, three, two]⟩ ∧
      after [.demote one.address, .promote one.address] = p := by
  intro one two three gone p after
  have hnodup : p.addresses.Nodup := by decide
  obtain ⟨hsame, hapart, hdropped, -⟩ := change_algebra hnodup
  refine ⟨hnodup, ?_, ?_, ?_⟩
  · exact (hdropped [two.address, gone, one.address] two.address []).1.trans (by decide)
  · exact (hapart gone two.address (by decide)).trans (by decide)
  · exact (hsame one.address).2.2.1.trans (by decide)

end Pool
end ResolverRace
