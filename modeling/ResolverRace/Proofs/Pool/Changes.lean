import ResolverRace.Pool.Change
import ResolverRace.Proofs.Pool.Moves

/-!
# Pools under change

Whatever is done to a pool, no address comes twice in it. So a place is found by its address, and
each change does to the order what it is meant to do and nothing else. A snapshot keeps the order of
the moment at which it was taken.

* `position?_eq_some_iff` — the place of an address cuts the order in two.
* `add_eq`, `moveToFront_eq`, `moveToBack_eq` — the changes with answers are those without.
* `Pool.Kept` — what holds of a pool between changes; `Kept.serve`.
* `snapshots_serveAll` — what was taken stays as it is.
* `kept_serveAll` — from a pool that was read, through any changes.
-/

namespace ResolverRace
namespace Pool

section

variable {p q : Pool} {a : Address}

/-! ## Places -/

/-- The place of an address is the number of entries in front of its first one. -/
theorem position?_eq_some_iff {i : Nat} :
    p.position? a = some i ↔ ∃ front c back, p.candidates = front ++ c :: back ∧
      front.length = i ∧ c.address = a ∧ ∀ d ∈ front, d.address ≠ a := by
  rw [position?, List.findIdx?_eq_some_iff_getElem]
  constructor
  · rintro ⟨hi, ha, hfront⟩
    refine ⟨p.candidates.take i, p.candidates[i], p.candidates.drop (i + 1), ?_, ?_,
      of_decide_eq_true ha, fun d hd => ?_⟩
    · rw [List.getElem_cons_drop, List.take_append_drop]
    · exact List.length_take_of_le (Nat.le_of_lt hi)
    · obtain ⟨j, hj, rfl⟩ := List.mem_iff_getElem.1 hd
      rw [List.length_take] at hj
      have hother := hfront j (by omega)
      rw [List.getElem_take]
      simpa using hother
  · rintro ⟨front, c, back, hp, rfl, hc, hfront⟩
    refine ⟨by simp [hp], ?_, fun j hj => ?_⟩
    · simp [hp, hc]
    · have hother := hfront front[j] (List.getElem_mem hj)
      simpa [hp, List.getElem_append_left hj] using hother

theorem position?_eq_none_iff : p.position? a = none ↔ a ∉ p.addresses := by
  simp [position?, addresses]

theorem isSome_position? (p : Pool) (a : Address) :
    (p.position? a).isSome = p.contains a := by
  rw [Bool.eq_iff_iff, contains_iff, Option.isSome_iff_ne_none, ne_eq, position?_eq_none_iff,
    Decidable.not_not]

/-! ## Changes and their answers -/

theorem add_eq (p : Pool) (c : Candidate) : p.add c = (p.push c, !p.contains c.address) := by
  rw [add, push, isSome_position?]
  cases p.contains c.address <;> rfl

theorem rotateRight_concat {α : Type} (xs : List α) (x : α) :
    (xs ++ [x]).rotateRight = x :: xs := by
  cases xs with
  | nil => rfl
  | cons y ys => simp [List.rotateRight]

theorem rotateLeft_cons {α : Type} (x : α) (xs : List α) : (x :: xs).rotateLeft = xs ++ [x] := by
  cases xs with
  | nil => rfl
  | cons y ys => simp [List.rotateLeft]

theorem moveToFront_eq (p : Pool) (a : Address) :
    p.moveToFront a = (p.promote a, p.contains a) := by
  rw [moveToFront, ← isSome_position?]
  cases h : p.position? a with
  | none => rw [(p.promote_moved a).absent (position?_eq_none_iff.1 h)]; rfl
  | some i =>
    obtain ⟨front, c, back, hp, rfl, hc, hfront⟩ := position?_eq_some_iff.1 h
    have hmoved := (p.promote_moved a).present front c back hp hc hfront
    have htake : p.candidates.take (front.length + 1) = front ++ [c] := by
      rw [hp, List.take_length_add_append]
      rfl
    have hdrop : p.candidates.drop (front.length + 1) = back := by simp [hp]
    refine Prod.ext (eq_of_candidates ?_) rfl
    simp only [htake, hdrop, rotateRight_concat, hmoved, List.cons_append]

theorem moveToBack_eq (p : Pool) (a : Address) : p.moveToBack a = (p.demote a, p.contains a) := by
  rw [moveToBack, ← isSome_position?]
  cases h : p.position? a with
  | none => rw [(p.demote_moved a).absent (position?_eq_none_iff.1 h)]; rfl
  | some i =>
    obtain ⟨front, c, back, hp, rfl, hc, hfront⟩ := position?_eq_some_iff.1 h
    have hmoved := (p.demote_moved a).present front c back hp hc hfront
    have htake : p.candidates.take front.length = front := by simp [hp]
    have hdrop : p.candidates.drop front.length = c :: back := by simp [hp]
    refine Prod.ext (eq_of_candidates ?_) rfl
    simp only [htake, hdrop, rotateLeft_cons, hmoved, List.append_assoc]

theorem change_promote (p : Pool) (a : Address) : p.change (.promote a) = p.promote a := by
  rw [change, moveToFront_eq]

theorem change_demote (p : Pool) (a : Address) : p.change (.demote a) = p.demote a := by
  rw [change, moveToBack_eq]

theorem foldl_change_promote (p : Pool) (as : List Address) :
    (as.map Change.promote).foldl change p = as.foldl promote p := by
  simp only [List.foldl_map, change_promote]

theorem foldl_change_demote (p : Pool) (as : List Address) :
    (as.map Change.demote).foldl change p = as.foldl demote p := by
  simp only [List.foldl_map, change_demote]

/-! ## Between changes -/

/-- What every pool keeps to: no address comes twice, and what each change would do. -/
structure Kept (p : Pool) : Prop where
  nodup : p.addresses.Nodup
  /-- A new address goes behind the others, one that is there is not added again. -/
  add : ∀ c, p.add c =
    if c.address ∈ p.addresses then (p, false) else (⟨p.candidates ++ [c]⟩, true)
  /-- The entry of the address moves to the front, if there is one, and the others stay in order. -/
  front : ∀ a, ((p.moveToFront a).2 = true ↔ a ∈ p.addresses) ∧
    p.MovedToFront a (p.moveToFront a).1
  /-- The same for the back. -/
  back : ∀ a, ((p.moveToBack a).2 = true ↔ a ∈ p.addresses) ∧ p.MovedToBack a (p.moveToBack a).1
  /-- A shuffle keeps all entries, and so does the one with any random words. -/
  shuffle : (∀ order permutes, (p.change (.shuffle order permutes)).candidates.Perm p.candidates) ∧
    ∀ s, p.change (.shuffleWith s) = (p.shuffle s).1

theorem kept_of_nodup (h : p.addresses.Nodup) : p.Kept := by
  refine ⟨h, fun c => ?_, fun a => ?_, fun a => ?_, fun order permutes => permutes _, fun s => rfl⟩
  · rw [add_eq, push]
    by_cases hc : p.contains c.address = true
    · rw [if_pos hc, if_pos (contains_iff.1 hc), hc]
      rfl
    · rw [if_neg hc, if_neg fun hin => hc (contains_iff.2 hin), Bool.eq_false_iff.2 hc]
      rfl
  · rw [moveToFront_eq]
    exact ⟨contains_iff, p.promote_moved a⟩
  · rw [moveToBack_eq]
    exact ⟨contains_iff, p.demote_moved a⟩

theorem nodup_change (h : p.addresses.Nodup) (c : Change) : (p.change c).addresses.Nodup := by
  cases c with
  | push c =>
    rw [change, add_eq]
    exact nodup_push h c
  | promote a =>
    rw [change_promote]
    exact nodup_promote h a
  | demote a =>
    rw [change_demote]
    exact nodup_demote h a
  | shuffle order permutes => exact nodup_of_perm h (permutes _)

/-! ## Snapshots -/

theorem nodup_serveAll {d : Desk} (h : d.pool.addresses.Nodup) (requests : List Request) :
    (d.serveAll requests).pool.addresses.Nodup := by
  induction requests generalizing d with
  | nil => exact h
  | cons request requests ih =>
    refine ih ?_
    cases request with
    | change c => exact nodup_change h c
    | snapshot => exact h

/-- Snapshots that were taken stay, and later ones come behind them. -/
theorem snapshots_serveAll (d : Desk) (requests : List Request) :
    d.snapshots <+: (d.serveAll requests).snapshots := by
  induction requests generalizing d with
  | nil => exact List.prefix_rfl
  | cons request requests ih =>
    refine List.IsPrefix.trans ?_ (ih (d.serve request))
    cases request with
    | change => exact List.prefix_rfl
    | snapshot => exact List.prefix_append _ _

theorem snapshot_serveAll (d : Desk) (before after : List Request) :
    (d.serveAll (before ++ .snapshot :: after)).snapshots[(d.serveAll before).snapshots.length]? =
      some (d.serveAll before).pool.candidates := by
  have hsplit : d.serveAll (before ++ .snapshot :: after) =
      ((d.serveAll before).serve .snapshot).serveAll after := List.foldl_append
  obtain ⟨later, hlater⟩ := snapshots_serveAll ((d.serveAll before).serve .snapshot) after
  rw [hsplit, ← hlater]
  simp [Desk.serve]

end

/-- A pool that was read keeps to this through any changes, and what was copied at some moment is
the order of that moment, whatever is done to the pool afterwards. -/
theorem kept_serveAll (entries : List String) (origin : Origin) (requests : List Request) :
    let desk := (Desk.opened (ofEntries entries origin).pool).serveAll requests
    desk.pool.Kept ∧
      ∀ before after, requests = before ++ .snapshot :: after →
        let earlier := (Desk.opened (ofEntries entries origin).pool).serveAll before
        desk.snapshots[earlier.snapshots.length]? = some earlier.pool.candidates := by
  intro desk
  refine ⟨kept_of_nodup (nodup_serveAll (clean_ofEntries entries origin).nodup requests), ?_⟩
  intro before after hrequests earlier
  have hsnapshot := snapshot_serveAll (Desk.opened (ofEntries entries origin).pool) before after
  rw [← hrequests] at hsnapshot
  exact hsnapshot

end Pool
end ResolverRace
