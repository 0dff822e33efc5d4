import ResolverRace.Proofs.Pool.Order

/-!
# Who comes first and who comes last

* `Pool.Starts`, `Pool.Ends` — an address that is there at all is in front, or behind all others.
* `starts_promote`, `ends_demote` — what a move brings about.
* `Starts.promote_eq` — who is in front stays there.
* `Starts.demote`, `Ends.promote` — another address may go to the other end meanwhile.
* `ends_apply` — the pool of who remembers the address as the newest failure.
-/

namespace ResolverRace
namespace Pool

/-- If the address is in the pool, it comes first. -/
def Starts (a : Address) (p : Pool) : Prop := a ∈ p.addresses → p.addresses.head? = some a

/-- If the address is in the pool, it comes last. -/
def Ends (a : Address) (p : Pool) : Prop := a ∈ p.addresses → p.addresses.getLast? = some a

theorem mem_addresses_of_perm {p q : Pool} (h : q.candidates.Perm p.candidates) {a : Address} :
    a ∈ q.addresses ↔ a ∈ p.addresses := (h.map _).mem_iff

theorem starts_promote (p : Pool) (a : Address) : (p.promote a).Starts a := by
  intro ha
  rw [mem_addresses_of_perm (p.promote_perm a)] at ha
  rw [addresses_promote, if_pos ha]
  rfl

/-- Who is in front already stays there. -/
theorem Starts.promote_eq {p : Pool} {a : Address} (h : p.Starts a) : p.promote a = p := by
  obtain ⟨cs⟩ := p
  by_cases ha : a ∈ (Pool.mk cs).addresses
  · obtain ⟨c, rest, rfl, hc⟩ : ∃ c rest, cs = c :: rest ∧ c.address = a := by
      have hhead := h ha
      cases cs with
      | nil => cases hhead
      | cons c rest => exact ⟨c, rest, rfl, Option.some.inj hhead⟩
    simp [promote, find?, erase, hc]
  · rw [promote, find?_eq_none_iff.2 ha]

theorem starts_empty (a : Address) : Pool.empty.Starts a := fun ha => by cases ha

theorem Starts.demote {p : Pool} {a b : Address} (h : p.Starts b) (hne : a ≠ b) :
    (p.demote a).Starts b := by
  intro hb
  rw [mem_addresses_of_perm (p.demote_perm a)] at hb
  obtain ⟨rest, hrest⟩ : ∃ rest, p.addresses = b :: rest := List.head?_eq_some_iff.1 (h hb)
  rw [addresses_demote]
  split
  · rw [hrest, List.erase_cons_tail (by simpa using hne.symm)]
    rfl
  · exact h hb

theorem ends_demote (p : Pool) (a : Address) : (p.demote a).Ends a := by
  intro ha
  rw [mem_addresses_of_perm (p.demote_perm a)] at ha
  rw [addresses_demote, if_pos ha]
  exact List.getLast?_concat ..

/-- Who is taken from the pool is not who comes last, so that one still does. -/
theorem getLast?_erase {as : List Address} {a b : Address} (h : as.getLast? = some a)
    (hne : b ≠ a) : (as.erase b).getLast? = some a := by
  obtain ⟨front, rfl⟩ := List.getLast?_eq_some_iff.1 h
  have hkeep : [a].erase b = [a] := by simp [hne.symm]
  by_cases hb : b ∈ front
  · rw [List.erase_append_left _ hb]
    exact List.getLast?_concat ..
  · rw [List.erase_append_right _ hb, hkeep]
    exact List.getLast?_concat ..

theorem Ends.promote {p : Pool} {a b : Address} (h : p.Ends a) (hne : b ≠ a) :
    (p.promote b).Ends a := by
  intro ha
  rw [mem_addresses_of_perm (p.promote_perm b)] at ha
  have hlast := h ha
  rw [addresses_promote]
  split
  · rw [List.getLast?_cons, getLast?_erase hlast hne]
    rfl
  · exact hlast

theorem ends_empty (a : Address) : Pool.empty.Ends a := fun ha => by cases ha

/-- Demoted one after another, the last one comes last. -/
theorem ends_foldl_demote {as : List Address} {a : Address} (h : as.getLast? = some a) (p : Pool) :
    (as.foldl demote p).Ends a := by
  obtain ⟨front, rfl⟩ := List.getLast?_eq_some_iff.1 h
  rw [List.foldl_append]
  exact ends_demote _ a

end Pool

namespace Standing

variable {t : Standing} {a : Address}

theorem starts_apply (h : t.last = some a) (p : Pool) : (t.apply p).Starts a := by
  simp only [apply, h]
  exact Pool.starts_promote _ a

theorem ends_apply (hlast : t.last ≠ some a) (hdemoted : t.demoted.getLast? = some a) (p : Pool) :
    (t.apply p).Ends a := by
  have hends := Pool.ends_foldl_demote hdemoted p
  rw [apply]
  split
  · rename_i b hb
    exact hends.promote fun he => hlast (hb.trans (congrArg some he))
  · exact hends

end Standing
end ResolverRace
