import ResolverRace.Proofs.Address.Text
import ResolverRace.Proofs.Lists
import ResolverRace.Proofs.Pool.Order

/-!
# What is loaded

A pool that is read from entries holds the addresses that the entries mean, each at the place of the
first entry that means it. A bad entry costs nothing but itself.

* `Address.fault?` — what is wrong with an entry.
* `candidates_ofEntries`, `rejected_ofEntries` — what is loaded from entries.
* `repeats` — the places of entries that are passed over.
* `ofEntries_closed` — what is loaded, that no entry is lost, and that it loads again.
-/

namespace ResolverRace

namespace Address

/-- What is wrong with a text that is no address. -/
def fault? (s : String) : Option AddressError :=
  match parse s with
  | .ok _ => none
  | .error e => some e

/-- A text is an address, or something is wrong with it. -/
theorem parse_cases (s : String) :
    (∃ a, parse s = .ok a ∧ parse? s = some a ∧ fault? s = none) ∨
      ∃ e, parse s = .error e ∧ parse? s = none ∧ fault? s = some e := by
  rw [parse?, fault?]
  cases parse s with
  | ok a => exact .inl ⟨a, rfl, rfl, rfl⟩
  | error e => exact .inr ⟨e, rfl, rfl, rfl⟩

theorem fault?_text {a : Address} (h : a.Proper) : fault? a.text = none := by
  rw [fault?, parse_text h]

end Address

namespace Pool

section

variable {entries : List String} {origin : Origin} {a : Address}

/-! ## Entry by entry -/

theorem ofEntries_concat (entries : List String) (entry : String) (origin : Origin) :
    ofEntries (entries ++ [entry]) origin = (ofEntries entries origin).add origin entry := by
  rw [ofEntries, List.foldl_append]
  rfl

theorem candidates_push (p : Pool) (c : Candidate) :
    (p.push c).candidates =
      if c.address ∈ p.addresses then p.candidates else p.candidates ++ [c] := by
  rw [push]
  by_cases h : p.contains c.address
  · rw [if_pos h, if_pos (contains_iff.1 h)]
  · rw [if_neg h, if_neg fun hin => h (contains_iff.2 hin)]

theorem addresses_map (as : List Address) (origin : Origin) :
    (Pool.mk (as.map (⟨·, origin⟩))).addresses = as := by
  rw [addresses, List.map_map]
  exact List.map_id as

/-- Each address that is meant is there once, at the place of its first entry. -/
theorem candidates_ofEntries (entries : List String) (origin : Origin) :
    (ofEntries entries origin).pool.candidates =
      (entries.filterMap Address.parse?).eraseDups.map (⟨·, origin⟩) := by
  induction entries using List.reverseRecOn with
  | nil => rfl
  | append_singleton entries entry ih =>
    have haddresses : (ofEntries entries origin).pool.addresses =
        (entries.filterMap Address.parse?).eraseDups := by
      rw [addresses, ih]
      exact addresses_map _ origin
    rw [ofEntries_concat, Loaded.add, filterMap_concat]
    rcases Address.parse_cases entry with ⟨a, hparse, hread, _⟩ | ⟨e, hparse, hread, _⟩
    · rw [hparse, hread, Option.toList_some, candidates_push, haddresses, ih, eraseDups_concat]
      by_cases ha : a ∈ entries.filterMap Address.parse?
      · rw [if_pos (List.mem_eraseDups.2 ha), if_pos ha]
      · rw [if_neg (mt List.mem_eraseDups.1 ha), if_neg ha, List.map_append]
        rfl
    · rw [hparse, hread, Option.toList_none, List.append_nil, ih]

theorem rejected_ofEntries (entries : List String) (origin : Origin) :
    (ofEntries entries origin).rejected = entries.filterMap Address.fault? := by
  induction entries using List.reverseRecOn with
  | nil => rfl
  | append_singleton entries entry ih =>
    rw [ofEntries_concat, Loaded.add, filterMap_concat, ← ih]
    rcases Address.parse_cases entry with ⟨a, hparse, _, hfault⟩ | ⟨e, hparse, _, hfault⟩
    · rw [hparse, hfault, Option.toList_none, List.append_nil]
    · rw [hparse, hfault, Option.toList_some]

theorem ofEntries_eq (entries : List String) (origin : Origin) :
    ofEntries entries origin =
      ⟨⟨(entries.filterMap Address.parse?).eraseDups.map (⟨·, origin⟩)⟩,
        entries.filterMap Address.fault?⟩ := by
  rw [← candidates_ofEntries, ← rejected_ofEntries entries origin]

theorem addresses_ofEntries (entries : List String) (origin : Origin) :
    (ofEntries entries origin).pool.addresses = (entries.filterMap Address.parse?).eraseDups := by
  rw [addresses, candidates_ofEntries]
  exact addresses_map _ origin

theorem mem_addresses_ofEntries :
    a ∈ (ofEntries entries origin).pool.addresses ↔ a ∈ entries.filterMap Address.parse? := by
  rw [addresses_ofEntries, List.mem_eraseDups]

/-- Whatever was read from an entry is proper. -/
theorem proper_ofEntries (h : a ∈ (ofEntries entries origin).pool.addresses) : a.Proper := by
  obtain ⟨entry, _, hread⟩ := List.mem_filterMap.1 (mem_addresses_ofEntries.1 h)
  exact Address.proper_of_parse? hread

/-! ## Entries that are passed over -/

/-- Whether the entry at a place means an address that an entry before it means already. -/
def repeatsAt (entries : List String) (i : Nat) : Bool :=
  (entries[i]?.bind Address.parse?).any (· ∈ (entries.take i).filterMap Address.parse?)

/-- At how many places an address comes again. -/
def repeats (entries : List String) : Nat :=
  (List.range entries.length).countP (repeatsAt entries)

theorem repeats_concat (entries : List String) (entry : String) :
    repeats (entries ++ [entry]) = repeats entries +
      if (Address.parse? entry).any (· ∈ entries.filterMap Address.parse?) then 1 else 0 := by
  have hbefore : ∀ i ∈ List.range entries.length,
      repeatsAt (entries ++ [entry]) i = true ↔ repeatsAt entries i = true := by
    intro i hi
    have hlt : i < entries.length := List.mem_range.1 hi
    rw [repeatsAt, repeatsAt, List.getElem?_append_left hlt,
      List.take_append_of_le_length (Nat.le_of_lt hlt)]
  have hhere : repeatsAt (entries ++ [entry]) entries.length =
      (Address.parse? entry).any (· ∈ entries.filterMap Address.parse?) := by
    simp [repeatsAt]
  rw [repeats, repeats, List.length_append, List.length_singleton, List.range_succ,
    List.countP_append, List.countP_congr hbefore, List.countP_singleton, hhere]

/-- Every entry is taken in, passed over or refused. -/
theorem size_add_repeats_add_rejected (entries : List String) (origin : Origin) :
    (ofEntries entries origin).pool.size + repeats entries +
      (ofEntries entries origin).rejected.length = entries.length := by
  rw [size, candidates_ofEntries, rejected_ofEntries, List.length_map]
  induction entries using List.reverseRecOn with
  | nil => rfl
  | append_singleton entries entry ih =>
    rw [repeats_concat, filterMap_concat, filterMap_concat, List.length_append, List.length_append,
      List.length_singleton]
    rcases Address.parse_cases entry with ⟨a, _, hread, hfault⟩ | ⟨e, _, hread, hfault⟩
    · rw [hread, hfault, Option.toList_some, Option.toList_none, eraseDups_concat, Option.any_some]
      by_cases ha : a ∈ entries.filterMap Address.parse?
      · simp [ha]
        omega
      · simp [ha]
        omega
    · simp [hread, hfault]
      omega

/-! ## Loading again -/

/-- Addresses are read back from their texts. -/
theorem ofEntries_texts {as : List Address} (hproper : ∀ a ∈ as, a.Proper) (hnodup : as.Nodup)
    (origin : Origin) :
    ofEntries (as.map Address.text) origin = ⟨⟨as.map (⟨·, origin⟩)⟩, []⟩ := by
  have hfaults : (as.map Address.text).filterMap Address.fault? = [] := by
    rw [List.filterMap_map, List.filterMap_eq_nil_iff]
    exact fun a ha => Address.fault?_text (hproper a ha)
  rw [ofEntries_eq, Address.filterMap_parse?_text hproper, hfaults, eraseDups_of_nodup hnodup]

/-- A pool that is loaded holds the addresses of the entries in their order, later ones that are equal
left out, and all of one origin. Every other entry is one of these repetitions or is refused with its
own error. The texts of the addresses load as the same pool. -/
theorem ofEntries_closed (entries : List String) (origin : Origin) :
    let loaded := ofEntries entries origin
    loaded.pool.candidates = (entries.filterMap Address.parse?).eraseDups.map (⟨·, origin⟩) ∧
      loaded.rejected = entries.filterMap Address.fault? ∧
      loaded.pool.size + repeats entries + loaded.rejected.length = entries.length ∧
      ofEntries (loaded.pool.addresses.map Address.text) origin = ⟨loaded.pool, []⟩ := by
  intro loaded
  have hcandidates := candidates_ofEntries entries origin
  refine ⟨hcandidates, rejected_ofEntries entries origin,
    size_add_repeats_add_rejected entries origin, ?_⟩
  have hnodup : loaded.pool.addresses.Nodup := (clean_ofEntries entries origin).nodup
  have hpool : Pool.mk (loaded.pool.addresses.map (⟨·, origin⟩)) = loaded.pool := by
    rw [addresses_ofEntries, ← hcandidates]
  rw [ofEntries_texts (fun a ha => proper_ofEntries ha) hnodup, hpool]

end

end Pool
end ResolverRace
