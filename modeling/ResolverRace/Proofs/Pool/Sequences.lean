import Mathlib.Data.List.Dedup
import ResolverRace.Proofs.Pool.Changes

/-!
# Sequences of moves

Of several moves to one end only the last one of each address counts, so a sequence of them leaves a
pool in an order that can be told at once: at that end the addresses that were moved, by their last
moves, and before or behind them the others in their order. Moves of addresses that are not there
count for nothing.

* `candidates_foldl_demote`, `candidates_foldl_promote` — the order after a sequence of moves.
* `Standing.candidates_apply` — the order that is due to what is remembered.
* `Standing.apply_closed` — how it comes about, what it is, and that it lasts.
-/

namespace ResolverRace
namespace Pool

section

variable {p q : Pool} {a : Address} {as : List Address}

/-- The candidates of none of these addresses, in their order. -/
def without (p : Pool) (as : List Address) : List Candidate :=
  p.candidates.filter (·.address ∉ as)

theorem filter_only_not_mem (p : Pool) (a : Address) (as : List Address) :
    (p.only a).filter (·.address ∉ as) = if a ∈ as then [] else p.only a := by
  split
  · rename_i ha
    refine List.filter_eq_nil_iff.2 fun c hc => ?_
    simpa [address_of_mem_only hc] using ha
  · rename_i ha
    refine List.filter_eq_self.2 fun c hc => ?_
    simpa [address_of_mem_only hc] using ha

theorem filter_others_not_mem (p : Pool) (a : Address) (as : List Address) :
    (p.others a).filter (·.address ∉ as) = p.without (a :: as) := by
  rw [others, without, List.filter_filter]
  refine List.filter_congr fun c _ => ?_
  by_cases ha : c.address = a <;> simp [ha]

theorem without_demote (h : p.addresses.Nodup) (a : Address) (as : List Address) :
    (p.demote a).without as = p.without (a :: as) ++ if a ∈ as then [] else p.only a := by
  rw [without, candidates_demote h, List.filter_append, filter_others_not_mem, filter_only_not_mem]

theorem without_promote (h : p.addresses.Nodup) (a : Address) (as : List Address) :
    (p.promote a).without as = (if a ∈ as then [] else p.only a) ++ p.without (a :: as) := by
  rw [without, candidates_promote h, List.filter_append, filter_others_not_mem, filter_only_not_mem]

/-- The addresses that were demoted come last, in the order of their last demotions. -/
theorem candidates_foldl_demote (h : p.addresses.Nodup) (as : List Address) :
    (as.foldl demote p).candidates = p.without as ++ as.dedup.flatMap p.only := by
  induction as generalizing p with
  | nil => simp [without]
  | cons a as ih =>
    have honly : (p.demote a).only = p.only := funext (only_of_perm h (p.demote_perm a))
    rw [List.foldl_cons, ih (nodup_demote h a), without_demote h, honly, List.append_assoc]
    congr 1
    by_cases ha : a ∈ as
    · rw [if_pos ha, List.dedup_cons_of_mem ha, List.nil_append]
    · rw [if_neg ha, List.dedup_cons_of_notMem ha, List.flatMap_cons]

/-- The addresses that were promoted come first, the one that was promoted last in front. -/
theorem candidates_foldl_promote (h : p.addresses.Nodup) (as : List Address) :
    (as.foldl promote p).candidates = as.dedup.reverse.flatMap p.only ++ p.without as := by
  induction as generalizing p with
  | nil => simp [without]
  | cons a as ih =>
    have honly : (p.promote a).only = p.only := funext (only_of_perm h (p.promote_perm a))
    rw [List.foldl_cons, ih (nodup_promote h a), without_promote h, honly, ← List.append_assoc]
    congr 1
    by_cases ha : a ∈ as
    · rw [if_pos ha, List.dedup_cons_of_mem ha, List.append_nil]
    · rw [if_neg ha, List.dedup_cons_of_notMem ha, List.reverse_cons, List.flatMap_append,
        List.flatMap_singleton]

/-- The candidates of some addresses without those of one. -/
theorem filter_flatMap_only (p : Pool) (as : List Address) (b : Address) :
    (as.flatMap p.only).filter (·.address ≠ b) = (as.filter (· ≠ b)).flatMap p.only := by
  induction as with
  | nil => rfl
  | cons a as ih =>
    rw [List.flatMap_cons, List.filter_append, ih]
    by_cases ha : a = b
    · rw [ha, filter_only_self, List.nil_append, List.filter_cons_of_neg (by simp)]
    · rw [filter_only p ha, List.filter_cons_of_pos (by simpa using ha), List.flatMap_cons]

theorem address_mem_of_flatMap_only {c : Candidate} (hc : c ∈ as.flatMap p.only) :
    c.address ∈ as := by
  obtain ⟨a, ha, hca⟩ := List.mem_flatMap.1 hc
  exact address_of_mem_only hca ▸ ha

/-- Where no address comes twice, its entry is the one that is found. -/
theorem only_eq_find? (h : p.addresses.Nodup) (a : Address) : p.only a = (p.find? a).toList := by
  rcases cut_cases h a with ⟨c, hfind, honly, _⟩ | ⟨hfind, honly, _⟩ <;> simp [hfind, honly]

theorem flatMap_only (h : p.addresses.Nodup) (as : List Address) :
    as.flatMap p.only = as.filterMap p.find? := by
  rw [List.filterMap_eq_flatMap_toList]
  exact List.flatMap_congr fun a _ => only_eq_find? h a

end

end Pool

namespace Standing

section

variable {p : Pool}

/-- The candidates that nothing is remembered of, in their order. -/
def unmarked (t : Standing) (p : Pool) : List Candidate :=
  p.candidates.filter fun c => t.last ≠ some c.address ∧ c.address ∉ t.demoted

/-- The demoted addresses but for the last winner, in the order of their last demotions. -/
def setBack (t : Standing) : List Address := t.demoted.dedup.filter (t.last ≠ some ·)

theorem candidates_apply (h : p.addresses.Nodup) (t : Standing) :
    (t.apply p).candidates =
      t.last.toList.flatMap p.only ++ t.unmarked p ++ t.setBack.flatMap p.only := by
  have hdemoted := Pool.candidates_foldl_demote h t.demoted
  rw [apply]
  cases hlast : t.last with
  | none => simpa [hlast, unmarked, setBack, Pool.without] using hdemoted
  | some b =>
    have hnodup : (t.demoted.foldl Pool.demote p).addresses.Nodup := Pool.nodup_foldl_demote h _
    have honly : (t.demoted.foldl Pool.demote p).only b = p.only b :=
      Pool.only_of_perm h (Pool.foldl_perm Pool.demote_perm t.demoted p) b
    have hunmarked : (p.without t.demoted).filter (·.address ≠ b) = t.unmarked p := by
      rw [Pool.without, unmarked, List.filter_filter]
      exact List.filter_congr fun c _ => by simp [hlast, eq_comm]
    have hback : t.demoted.dedup.filter (· ≠ b) = t.setBack := by
      rw [setBack]
      exact List.filter_congr fun a _ => by simp [hlast, eq_comm]
    rw [Pool.candidates_promote hnodup, honly, Pool.others, hdemoted, List.filter_append,
      hunmarked, Pool.filter_flatMap_only, hback]
    simp

/-- The order does not move those that nothing is remembered of past each other. -/
theorem unmarked_apply (h : p.addresses.Nodup) (t : Standing) :
    t.unmarked (t.apply p) = t.unmarked p := by
  have hfront : (t.last.toList.flatMap p.only).filter
      (fun c => t.last ≠ some c.address ∧ c.address ∉ t.demoted) = [] := by
    refine List.filter_eq_nil_iff.2 fun c hc => ?_
    have hlast : t.last = some c.address :=
      Option.mem_toList.1 (Pool.address_mem_of_flatMap_only hc)
    simp [hlast]
  have hback : (t.setBack.flatMap p.only).filter
      (fun c => t.last ≠ some c.address ∧ c.address ∉ t.demoted) = [] := by
    refine List.filter_eq_nil_iff.2 fun c hc => ?_
    have hdemoted : c.address ∈ t.demoted :=
      List.mem_dedup.1 (List.mem_filter.1 (Pool.address_mem_of_flatMap_only hc)).1
    simp [hdemoted]
  rw [unmarked, candidates_apply h, List.filter_append, List.filter_append, hfront, hback,
    unmarked, List.filter_filter]
  simp

theorem apply_apply (h : p.addresses.Nodup) (t : Standing) :
    t.apply (t.apply p) = t.apply p := by
  have hperm : (t.apply p).candidates.Perm p.candidates := t.apply_perm p
  have honly : (t.apply p).only = p.only := funext (Pool.only_of_perm h hperm)
  refine Pool.eq_of_candidates ?_
  rw [candidates_apply (Pool.nodup_of_perm h hperm), unmarked_apply h, honly, candidates_apply h]

/-- The changes that bring a pool into order, one after another. -/
def changes (t : Standing) : List Pool.Change :=
  t.demoted.map .demote ++ t.last.toList.map .promote

/-- The order comes about by turning stretches of the pool. -/
theorem foldl_changes (t : Standing) (p : Pool) : t.changes.foldl Pool.change p = t.apply p := by
  rw [changes, List.foldl_append, Pool.foldl_change_demote, Pool.foldl_change_promote, apply]
  cases t.last <;> rfl

/-- What is remembered brings a pool into one order: the last winner if it is there, the candidates
that nothing is remembered of as they stood, then the demoted ones by their last demotions. Once it
is in this order it stays so. -/
theorem apply_closed (h : p.addresses.Nodup) (t : Standing) :
    t.changes.foldl Pool.change p = t.apply p ∧
      (t.apply p).candidates =
        (t.last.bind p.find?).toList ++
          p.candidates.filter (fun c => t.last ≠ some c.address ∧ c.address ∉ t.demoted) ++
          (t.demoted.dedup.filter (t.last ≠ some ·)).filterMap p.find? ∧
      t.apply (t.apply p) = t.apply p := by
  refine ⟨foldl_changes t p, ?_, apply_apply h t⟩
  have hlast : t.last.toList.flatMap p.only = (t.last.bind p.find?).toList := by
    rw [Pool.flatMap_only h]
    cases t.last with
    | none => rfl
    | some b => cases hb : p.find? b <;> simp [hb]
  rw [candidates_apply h, hlast, Pool.flatMap_only h]
  rfl

/-- The last winner has been demoted before, one of the others twice, and one that was demoted is not
in the pool. -/
theorem apply_closed_of_demoted_twice :
    let one : Address := ⟨.name "one", 53⟩
    let two : Address := ⟨.name "two", 53⟩
    let three : Address := ⟨.name "three", 53⟩
    let four : Address := ⟨.name "four", 53⟩
    let gone : Address := ⟨.name "gone", 53⟩
    let p : Pool := ⟨[⟨one, .builtin⟩, ⟨two, .builtin⟩, ⟨three, .builtin⟩, ⟨four, .builtin⟩]⟩
    let t : Standing := ⟨some three, [two, one, gone, two, three]⟩
    p.addresses.Nodup ∧ t.changes.foldl Pool.change p = t.apply p ∧
      (t.apply p).addresses = [three, four, one, two] ∧ t.apply (t.apply p) = t.apply p := by
  intro one two three four gone p t
  have hnodup : p.addresses.Nodup := by decide
  obtain ⟨hturned, hcandidates, hlasting⟩ := apply_closed hnodup t
  refine ⟨hnodup, hturned, ?_, hlasting⟩
  rw [Pool.addresses, hcandidates]
  decide

end

end Standing
end ResolverRace
