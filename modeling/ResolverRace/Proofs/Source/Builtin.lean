import ResolverRace.Proofs.Pool.Loading
import ResolverRace.Proofs.Pool.Places
import ResolverRace.Proofs.Pool.Sequences

/-!
# The order of the built-in list

Whatever the shuffle does, the well-known resolvers of the built-in list come first and in their own
order. The others follow as they were drawn, or as they stand in the list if it is not shuffled.

* `Pool.candidates_preferWellKnown` — who comes first.
* `Catalogue.drawn` — the candidates before the well-known ones are moved.
* `Catalogue.builtin_order` — the pool of a list text.
-/

namespace ResolverRace

namespace Pool

section

variable {p : Pool} {origin : Origin}

theorem preferred_nodup : preferred.Nodup := by decide

/-- The well-known resolvers are promoted from the last one on, so that the first one ends up in
front. -/
theorem candidates_preferWellKnown (h : p.addresses.Nodup) :
    p.preferWellKnown.candidates = preferred.flatMap p.only ++ p.without preferred := by
  have hpromoted : preferred.reverse.dedup.reverse = preferred := by
    rw [(List.nodup_reverse.2 preferred_nodup).dedup, List.reverse_reverse]
  have hothers : p.without preferred.reverse = p.without preferred := by simp [without]
  rw [preferWellKnown, candidates_foldl_promote h, hpromoted, hothers]

/-- The entries of an address in a pool of one origin. -/
theorem only_of_clean (h : p.Clean origin) (a : Address) :
    p.only a = if a ∈ p.addresses then [⟨a, origin⟩] else [] := by
  rw [only_eq_find? h.nodup]
  cases hfind : p.find? a with
  | none => rw [if_neg (find?_eq_none_iff.1 hfind), Option.toList_none]
  | some c =>
    obtain ⟨haddress, hin⟩ := find?_address hfind
    have horigin : c.origin = origin := h.origins c (List.mem_of_find?_eq_some hfind)
    rw [if_pos hin, Option.toList_some, ← haddress, ← horigin]

theorem flatMap_only_of_clean (h : p.Clean origin) (as : List Address) :
    as.flatMap p.only = (as.filter (· ∈ p.addresses)).map (⟨·, origin⟩) := by
  induction as with
  | nil => rfl
  | cons a as ih =>
    rw [List.flatMap_cons, ih, only_of_clean h]
    by_cases ha : a ∈ p.addresses <;> simp [ha]

end

end Pool

namespace Catalogue

/-- The candidates of the built-in list as they were drawn, or as they stand in the list. -/
def drawn (c : Catalogue) (chance : Random.Stream) : List Candidate :=
  let read := (Pool.ofEntries c.builtin .builtin).pool.candidates
  if c.shuffles then (Random.shuffleList read chance).1 else read

theorem drawn_perm (c : Catalogue) (chance : Random.Stream) :
    (c.drawn chance).Perm (Pool.ofEntries c.builtin .builtin).pool.candidates := by
  rw [drawn]
  split
  · exact Random.shuffleList_perm _ chance
  · exact .refl _

theorem load_builtin (c : Catalogue) (chance : Random.Stream) :
    ∃ rest, c.load .builtin chance = .ok (⟨(Pool.mk (c.drawn chance)).preferWellKnown,
      (Pool.ofEntries c.builtin .builtin).rejected⟩, rest) := by
  rw [load, drawn]
  cases c.shuffles <;> exact ⟨_, rfl⟩

/-- The pool of a built-in list: the well-known resolvers that it holds in whatever spelling, in their
own order, then the others as they were drawn. Each address that some entry means is there once, and
the errors are those of the other entries, whatever is drawn. -/
theorem builtin_order (text : String) (lists : List UserList) (shuffles : Bool)
    (chance : Random.Stream) :
    let c : Catalogue := { Catalogue.ofText text lists with shuffles := shuffles }
    let valid := (entriesOfText text).filterMap Address.parse?
    let distinct : List Candidate := valid.eraseDups.map (⟨·, .builtin⟩)
    let order := if shuffles then (Random.shuffleList distinct chance).1 else distinct
    ∃ loaded rest, c.load .builtin chance = .ok (loaded, rest) ∧
      loaded.pool.candidates =
        (preferred.filter (· ∈ valid)).map (⟨·, .builtin⟩) ++
          order.filter (·.address ∉ preferred) ∧
      order.Perm distinct ∧
      loaded.pool.addresses.Nodup ∧ (∀ a, a ∈ loaded.pool.addresses ↔ a ∈ valid) ∧
      loaded.rejected = (entriesOfText text).filterMap Address.fault? := by
  intro c valid distinct order
  have hread : (Pool.ofEntries c.builtin .builtin).pool.candidates = distinct :=
    Pool.candidates_ofEntries (entriesOfText text) .builtin
  have hdrawn : c.drawn chance = order := by
    rw [drawn, hread]
  have hperm : order.Perm (Pool.ofEntries c.builtin .builtin).pool.candidates :=
    hdrawn ▸ c.drawn_perm chance
  have hclean : (Pool.mk order).Clean .builtin :=
    (Pool.clean_ofEntries c.builtin .builtin).perm hperm
  have hmem (a : Address) : a ∈ (Pool.mk order).addresses ↔ a ∈ valid :=
    (Pool.mem_addresses_of_perm hperm).trans Pool.mem_addresses_ofEntries
  have hmoved := (Pool.mk order).preferWellKnown_perm
  have hcandidates : (Pool.mk order).preferWellKnown.candidates =
      (preferred.filter (· ∈ valid)).map (⟨·, .builtin⟩) ++
        order.filter (·.address ∉ preferred) := by
    rw [Pool.candidates_preferWellKnown hclean.nodup, Pool.flatMap_only_of_clean hclean]
    simp only [hmem]
    rfl
  have hnodup : (Pool.mk order).preferWellKnown.addresses.Nodup :=
    Pool.nodup_of_perm hclean.nodup hmoved
  have hvalid (a : Address) : a ∈ (Pool.mk order).preferWellKnown.addresses ↔ a ∈ valid :=
    (Pool.mem_addresses_of_perm hmoved).trans (hmem a)
  have hrejected := Pool.rejected_ofEntries (entriesOfText text) .builtin
  obtain ⟨rest, hload⟩ := c.load_builtin chance
  rw [hdrawn] at hload
  generalize (Pool.mk order).preferWellKnown = pool at hload hcandidates hnodup hvalid
  exact ⟨_, rest, hload, hcandidates, hread ▸ hperm, hnodup, hvalid, hrejected⟩

/-- The well-known resolvers as they are written. -/
example : preferred.map Address.text =
    ["8.8.8.8:53", "8.8.4.4:53", "1.1.1.1:53", "1.0.0.1:53", "9.9.9.9:53", "149.112.112.112:53",
      "208.67.222.222:53", "208.67.220.220:53"] := by
  decide

end Catalogue
end ResolverRace
