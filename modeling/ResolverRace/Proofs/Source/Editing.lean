import ResolverRace.Proofs.Pool.Loading
import ResolverRace.Source.UserList

/-!
# Edited lists and their pools

A list keeps texts, its pool keeps addresses. Edits keep the two in step: an entry that is added adds
its address to the pool, entries that are removed take their address out of it, and nothing else
changes, however many spellings, repetitions and bad entries the list holds.

* `enter_cases` — all that adding an entry can do.
* `loaded_enter`, `repeats_enter`, `loaded_remove` — what is loaded after an edit.
* `UserList.InStep` — what an edit answers and what is loaded after it.
* `edits_in_step` — every list is in step, and one that was built by adding has only good entries.
-/

namespace ResolverRace
namespace UserList

/-- What is loaded from a list. -/
def loaded (l : UserList) (origin : Origin) : Pool.Loaded := Pool.ofEntries l.resolvers origin

section

variable {l : UserList} {entry : String} {origin : Origin} {a : Address}

theorem parse_trim (entry : String) : Address.parse (Text.trim entry) = Address.parse entry := by
  rw [Address.parse, Address.parse, Text.trim, String.toList_ofList, Text.trimChars_idem]

/-- A list holds the addresses of its entries. -/
theorem holds_iff : l.holds a = true ↔ a ∈ l.resolvers.filterMap Address.parse? := by
  simp [holds, means]

theorem holds_iff_loaded (origin : Origin) :
    l.holds a = true ↔ a ∈ (l.loaded origin).pool.addresses :=
  holds_iff.trans Pool.mem_addresses_ofEntries.symm

/-- A text that is no address is refused, one whose address is held changes nothing, and any other
comes behind the entries. -/
theorem enter_cases (l : UserList) (entry : String) :
    (∃ e, Address.parse entry = .error e ∧ l.enter entry = (l, .error e)) ∨
      (∃ a, Address.parse entry = .ok a ∧ l.holds a = true ∧ l.enter entry = (l, .ok false)) ∨
      ∃ a, Address.parse entry = .ok a ∧ l.holds a = false ∧
        l.enter entry =
          ({ l with resolvers := l.resolvers ++ [Text.trim entry] }, .ok true) := by
  rw [enter, add]
  cases Address.parse entry with
  | error e => exact .inl ⟨e, rfl, rfl⟩
  | ok a =>
    cases h : l.holds a with
    | true => exact .inr (.inl ⟨a, rfl, h, by simp [h]⟩)
    | false => exact .inr (.inr ⟨a, rfl, h, by simp [h]⟩)

/-! ## After an entry was added -/

theorem loaded_concat (l : UserList) (origin : Origin) (h : Address.parse entry = .ok a) :
    ({ l with resolvers := l.resolvers ++ [Text.trim entry] } : UserList).loaded origin =
      ⟨(l.loaded origin).pool.push ⟨a, origin⟩, (l.loaded origin).rejected⟩ := by
  rw [loaded, Pool.ofEntries_concat, Pool.Loaded.add, parse_trim, h]
  rfl

/-- The pool takes in what is added to the list, and no errors come with it. -/
theorem loaded_enter (l : UserList) (entry : String) (origin : Origin) :
    (l.enter entry).1.loaded origin =
      ⟨((l.loaded origin).add origin entry).pool, (l.loaded origin).rejected⟩ := by
  rw [Pool.Loaded.add]
  rcases l.enter_cases entry with ⟨e, hparse, henter⟩ | ⟨a, hparse, hholds, henter⟩ |
    ⟨a, hparse, hholds, henter⟩
  · rw [henter, hparse]
  · have hin : (l.loaded origin).pool.contains a = true :=
      Pool.contains_iff.2 ((holds_iff_loaded origin).1 hholds)
    rw [henter, hparse]
    simp only [Pool.push, hin, if_true]
  · rw [henter, hparse, loaded_concat l origin hparse]

theorem repeats_enter (l : UserList) (entry : String) :
    Pool.repeats (l.enter entry).1.resolvers = Pool.repeats l.resolvers := by
  rcases l.enter_cases entry with ⟨e, _, henter⟩ | ⟨a, _, _, henter⟩ | ⟨a, hparse, hholds, henter⟩
  · rw [henter]
  · rw [henter]
  · have hread : Address.parse? (Text.trim entry) = some a := by
      rw [Address.parse?, parse_trim, hparse]
      rfl
    have hnew : a ∉ l.resolvers.filterMap Address.parse? := by
      rw [← holds_iff, hholds]
      decide
    rw [henter, Pool.repeats_concat, hread, Option.any_some, if_neg (by simpa using hnew),
      Nat.add_zero]

/-! ## After entries were removed -/

theorem withdraw_eq (l : UserList) (a : Address) : l.withdraw a = (l.remove a, l.holds a) := by
  refine Prod.ext rfl ?_
  rw [withdraw, Bool.eq_iff_iff, decide_eq_true_iff, remove, ne_eq, List.length_filter_eq_length_iff]
  simp [holds]

theorem filterMap_parse?_remove (l : UserList) (a : Address) :
    (l.remove a).resolvers.filterMap Address.parse? =
      (l.resolvers.filterMap Address.parse?).filter (· ≠ a) := by
  rw [remove, List.filterMap_filter, List.filter_filterMap]
  congr 1
  funext entry
  rw [means]
  cases Address.parse? entry with
  | none => rfl
  | some b => by_cases hb : b = a <;> simp [hb, Option.filter]

theorem filterMap_fault?_remove (l : UserList) (a : Address) :
    (l.remove a).resolvers.filterMap Address.fault? = l.resolvers.filterMap Address.fault? := by
  rw [remove, List.filterMap_filter]
  congr 1
  funext entry
  rw [means]
  rcases Address.parse_cases entry with ⟨b, _, hread, hfault⟩ | ⟨e, _, hread, hfault⟩
  · simp [hfault]
  · simp [hread]

/-- The address is missing in the pool afterwards, and the others are there as before. -/
theorem loaded_remove (l : UserList) (a : Address) (origin : Origin) :
    (l.remove a).loaded origin =
      ⟨⟨(l.loaded origin).pool.candidates.filter (·.address ≠ a)⟩, (l.loaded origin).rejected⟩ := by
  rw [loaded, loaded, Pool.ofEntries_eq, Pool.ofEntries_eq, filterMap_parse?_remove,
    filterMap_fault?_remove, eraseDups_filter, List.filter_map]
  rfl

/-! ## In step -/

/-- What edits of a list answer, and what is loaded after them in terms of what was loaded before. -/
structure InStep (origin : Origin) (l : UserList) : Prop where
  holds : ∀ a, l.holds a = true ↔ a ∈ (l.loaded origin).pool.addresses
  refused : ∀ entry e, (l.enter entry).2 = .error e ↔ Address.parse entry = .error e
  kept : ∀ entry e, (l.enter entry).2 = .error e → (l.enter entry).1 = l
  added : ∀ entry a, Address.parse entry = .ok a →
    (l.enter entry).2 = .ok (decide (a ∉ (l.loaded origin).pool.addresses))
  /-- The address of an entry that is added comes behind the others. -/
  entered : ∀ entry a, Address.parse entry = .ok a →
    (l.enter entry).1.loaded origin =
      if a ∈ (l.loaded origin).pool.addresses then l.loaded origin
      else ⟨⟨(l.loaded origin).pool.candidates ++ [⟨a, origin⟩]⟩, (l.loaded origin).rejected⟩
  removed : ∀ a, (l.withdraw a).2 = true ↔ a ∈ (l.loaded origin).pool.addresses
  withdrawn : ∀ a, (l.withdraw a).1.loaded origin =
    ⟨⟨(l.loaded origin).pool.candidates.filter (·.address ≠ a)⟩, (l.loaded origin).rejected⟩

theorem inStep (l : UserList) (origin : Origin) : l.InStep origin where
  holds a := holds_iff_loaded origin
  refused entry e := by
    rcases l.enter_cases entry with ⟨e', hparse, henter⟩ | ⟨a, hparse, _, henter⟩ |
      ⟨a, hparse, _, henter⟩ <;> simp [henter, hparse]
  kept entry e h := by
    rcases l.enter_cases entry with ⟨e', _, henter⟩ | ⟨a, _, _, henter⟩ | ⟨a, _, _, henter⟩
    · rw [henter]
    · rw [henter]
    · rw [henter] at h
      cases h
  added entry a h := by
    have hholds := holds_iff_loaded (l := l) (a := a) origin
    rcases l.enter_cases entry with ⟨e, hparse, _⟩ | ⟨b, hparse, hb, henter⟩ |
      ⟨b, hparse, hb, henter⟩ <;> rw [h] at hparse <;> cases hparse
    · simp [henter, hholds.1 hb]
    · have hout : a ∉ (l.loaded origin).pool.addresses := by
        rw [← hholds, hb]
        decide
      simp [henter, hout]
  entered entry a h := by
    rw [loaded_enter, Pool.Loaded.add, h]
    simp only [Pool.push, Pool.contains_iff]
    split <;> rfl
  removed a := by
    rw [withdraw_eq]
    exact holds_iff_loaded origin
  withdrawn a := by
    rw [withdraw_eq]
    exact loaded_remove l a origin

/-! ## Lists that are built by adding -/

/-- Adds entries one after another, whatever is answered. -/
def enterAll (l : UserList) (entries : List String) : UserList :=
  entries.foldl (fun l entry => (l.enter entry).1) l

theorem enterAll_concat (l : UserList) (entries : List String) (entry : String) :
    l.enterAll (entries ++ [entry]) = ((l.enterAll entries).enter entry).1 := by
  rw [enterAll, List.foldl_append]
  rfl

theorem loaded_enterAll (id name : String) (entries : List String) (origin : Origin) :
    ((UserList.mk id name []).enterAll entries).loaded origin =
      ⟨(Pool.ofEntries entries origin).pool, []⟩ := by
  induction entries using List.reverseRecOn with
  | nil => rfl
  | append_singleton entries entry ih =>
    rw [enterAll_concat, loaded_enter, ih, Pool.ofEntries_concat]
    simp only [Pool.Loaded.add]
    split <;> rfl

theorem repeats_enterAll (id name : String) (entries : List String) :
    Pool.repeats ((UserList.mk id name []).enterAll entries).resolvers = 0 := by
  induction entries using List.reverseRecOn with
  | nil => rfl
  | append_singleton entries entry ih => rw [enterAll_concat, repeats_enter, ih]

/-- Every list is in step with the pool that is loaded from it. A list that is built by adding
entries to an empty one loads as these entries do, but it holds no entry that is refused and none that
is passed over. -/
theorem edits_in_step (l : UserList) (origin : Origin) :
    l.InStep origin ∧ ∀ (id name : String) (entries : List String),
      let built := (UserList.mk id name []).enterAll entries
      built.loaded origin = ⟨(Pool.ofEntries entries origin).pool, []⟩ ∧
        Pool.repeats built.resolvers = 0 ∧
        (built.loaded origin).pool.size = built.resolvers.length := by
  refine ⟨l.inStep origin, fun id name entries => ?_⟩
  have hloaded := loaded_enterAll id name entries origin
  have hrepeats := repeats_enterAll id name entries
  have hsum := Pool.size_add_repeats_add_rejected
    ((UserList.mk id name []).enterAll entries).resolvers origin
  refine ⟨hloaded, hrepeats, ?_⟩
  rw [loaded] at hloaded
  rw [hrepeats, hloaded] at hsum
  rw [loaded, hloaded, ← hsum]
  rfl

end

end UserList
end ResolverRace
