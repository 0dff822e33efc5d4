import Mathlib.Data.List.Induction
import ResolverRace.Proofs.Pool.Moves
import ResolverRace.Proofs.Pool.Places

/-!
# Who comes before whom

* `Pool.Ahead` — none of some addresses comes before a certain one.
* `Ahead.promote`, `Ahead.demote` — an address that is not one of them may go to the front, and one
  that goes to the back may become one of them.
* `Standing.ahead_apply` — in an ordered pool no demoted resolver comes before one that is not.
-/

namespace ResolverRace
namespace Pool

/-- None of the addresses `as` comes before the address `b`. -/
def Ahead (b : Address) (as : List Address) (p : Pool) : Prop :=
  p.addresses.Pairwise fun x y => y = b → x ∉ as

section

variable {p : Pool} {a b : Address} {as as' : List Address}

theorem ahead_empty (b : Address) (as : List Address) : Pool.empty.Ahead b as := .nil

theorem Ahead.mono (h : p.Ahead b as) (hsub : ∀ x ∈ as', x ∈ as) : p.Ahead b as' :=
  List.Pairwise.imp (fun hx hy hin => hx hy (hsub _ hin)) h

/-- Nobody comes before who comes first. -/
theorem Starts.ahead (h : p.Starts b) (hnodup : p.addresses.Nodup) (as : List Address) :
    p.Ahead b as := by
  rw [Ahead]
  rw [Starts] at h
  cases hp : p.addresses with
  | nil => exact .nil
  | cons x xs =>
    rw [hp] at h hnodup
    have hlater : b ∉ xs := by
      intro hb
      have hx : x = b := Option.some.inj (h (List.mem_cons_of_mem _ hb))
      exact (List.nodup_cons.1 hnodup).1 (hx ▸ hb)
    have hother : ∀ y ∈ xs, y ≠ b := fun y hy he => hlater (he ▸ hy)
    refine List.pairwise_cons.2 ⟨fun y hy he => absurd he (hother y hy), ?_⟩
    exact List.pairwise_of_forall_mem_list fun _ _ y hy he => absurd he (hother y hy)

theorem Ahead.promote (h : p.Ahead b as) (ha : a ∉ as) : (p.promote a).Ahead b as := by
  rw [Ahead, addresses_promote]
  split
  · exact List.pairwise_cons.2 ⟨fun _ _ _ => ha, h.sublist List.erase_sublist⟩
  · exact h

/-- Where no address comes twice, who goes to the back is no longer before anybody else. -/
theorem Ahead.demote (h : p.Ahead b as) (hnodup : p.addresses.Nodup) (hne : a ≠ b) :
    (p.demote a).Ahead b (as ++ [a]) := by
  -- Without `a` among them, it makes no difference that `a` is one of the addresses now.
  have hothers : ∀ xs : List Address, xs.Pairwise (fun x y => y = b → x ∉ as) → a ∉ xs →
      xs.Pairwise fun x y => y = b → x ∉ as ++ [a] := by
    intro xs hxs hout
    refine List.Pairwise.imp_of_mem (fun {x y} hx _ hxy hy hin => ?_) hxs
    rcases List.mem_append.1 hin with hin | hin
    · exact hxy hy hin
    · exact hout (List.mem_singleton.1 hin ▸ hx)
  rw [Ahead, addresses_demote]
  split
  · rw [List.pairwise_append]
    refine ⟨hothers _ (h.sublist List.erase_sublist) hnodup.not_mem_erase,
      List.pairwise_singleton _ _, fun x _ y hy hyb => ?_⟩
    exact absurd ((List.mem_singleton.1 hy).symm.trans hyb) hne
  · rename_i hout
    exact hothers _ h hout

theorem ahead_foldl_demote (hnodup : p.addresses.Nodup) (hb : b ∉ as) :
    (as.foldl Pool.demote p).Ahead b as := by
  induction as using List.reverseRecOn with
  | nil => exact List.pairwise_of_forall fun _ _ _ hin => by cases hin
  | append_singleton as a ih =>
    have hne : a ≠ b := fun he => hb (List.mem_append_right _ (he ▸ List.mem_singleton_self a))
    rw [List.foldl_append]
    exact (ih fun hin => hb (List.mem_append_left _ hin)).demote (nodup_foldl_demote hnodup as) hne

/-- By their places: each of the addresses comes later. -/
theorem Ahead.lt (h : p.Ahead b as) (hb : b ∉ as) {i j : Nat} {c d : Candidate}
    (hc : p.candidates[i]? = some c) (hd : p.candidates[j]? = some d) (hcb : c.address = b)
    (hda : d.address ∈ as) : i < j := by
  by_contra hle
  rw [Ahead, addresses, List.pairwise_map, List.pairwise_iff_getElem] at h
  obtain ⟨hi, rfl⟩ := List.getElem?_eq_some_iff.1 hc
  obtain ⟨hj, rfl⟩ := List.getElem?_eq_some_iff.1 hd
  rcases Nat.lt_or_eq_of_le (Nat.le_of_not_lt hle) with hji | rfl
  · exact h j i hj hi hji hcb hda
  · exact hb (hcb ▸ hda)

end

end Pool

/-- No demoted resolver comes before one that is not demoted. -/
theorem Standing.ahead_apply {t : Standing} {p : Pool} {b : Address}
    (hnodup : p.addresses.Nodup) (hlast : ∀ a, t.last = some a → a ∉ t.demoted)
    (hb : b ∉ t.demoted) : (t.apply p).Ahead b t.demoted := by
  have hdemoted : (t.demoted.foldl Pool.demote p).Ahead b t.demoted :=
    Pool.ahead_foldl_demote hnodup hb
  rw [apply]
  split
  · rename_i a ha
    exact hdemoted.promote (hlast a ha)
  · exact hdemoted

end ResolverRace
