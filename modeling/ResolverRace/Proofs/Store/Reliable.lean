import ResolverRace.Store.Basic

/-!
# Stores that never fail

A reliable store answers every read and takes every change, now and after whatever was changed. It
then works as a map: what was put under a key is found there, and other keys keep their values.

* `Store.Reliable` — no access fails, whatever was changed before.
* `Store.SameOutside` — two stores hold the same but for some keys.
* `Reliable.get`, `Reliable.put`, `Reliable.remove` — the store as a map.
* `inMemory_reliable` — a store in memory that refuses nothing.
-/

namespace ResolverRace

/-- A key that is not there is erased without a trace. -/
theorem KeyMap.erase_of_not_contains {m : KeyMap} {key : String} (h : m.contains key = false) :
    m.erase key = m := by
  have hnone : m.entries.lookup key = none :=
    Option.not_isSome_iff_eq_none.1 (Bool.eq_false_iff.1 h)
  refine congrArg KeyMap.mk (List.filter_eq_self.2 fun entry hentry => ?_)
  have hne : key ≠ entry.1 := bne_iff_ne.1 (List.lookup_eq_none_iff.1 hnone entry hentry)
  exact decide_eq_true hne.symm

namespace Store

/-- One change of a store. -/
inductive Change where
  | put (key value : String)
  | remove (key : String)

def change (s : Store) : Change → Store × Except Error Unit
  | .put key value => s.put key value
  | .remove key => s.remove key

/-- The store after some changes, whether or not they were taken. -/
def changeAll (s : Store) (changes : List Change) : Store :=
  changes.foldl (fun s c => (s.change c).1) s

/-- No access ever fails. -/
structure Reliable (s : Store) : Prop where
  reads : ∀ changes key, ∃ value, (s.changeAll changes).get key = .ok value
  writes : ∀ changes c, ((s.changeAll changes).change c).2 = .ok ()

/-- The two stores hold the same outside some keys. -/
def SameOutside (keys : List String) (s t : Store) : Prop :=
  ∀ k, k ∉ keys → t.values.get? k = s.values.get? k

theorem SameOutside.refl (keys : List String) (s : Store) : s.SameOutside keys s := fun _ _ => rfl

theorem SameOutside.trans {keys keys' : List String} {s t u : Store} (h : s.SameOutside keys t)
    (h' : t.SameOutside keys' u) : s.SameOutside (keys ++ keys') u := by
  intro k hk
  rw [List.mem_append, not_or] at hk
  rw [h' k hk.2, h k hk.1]

/-- The values after a change that was taken. -/
def Change.applyTo (m : KeyMap) : Change → KeyMap
  | .put key value => m.insert key value
  | .remove key => m.erase key

/-- A change that is taken is served from then on. -/
theorem values_change {s : Store} {c : Change} (h : (s.change c).2 = .ok ()) (k : String) :
    (s.change c).1.values.get? k = (c.applyTo s.values).get? k := by
  obtain ⟨backing, refusals, disk⟩ := s
  cases c with
  | put key value =>
    simp only [change, put] at h ⊢
    split at h
    · cases h
    · rename_i hrefuses
      rw [if_neg hrefuses]
      cases backing <;> rfl
  | remove key =>
    simp only [change, remove] at h ⊢
    split at h
    · cases h
    · rename_i hrefuses
      rw [if_neg hrefuses]
      cases backing with
      | memory values => rfl
      | file store =>
        simp only [removeAnyway, FileStore.remove]
        by_cases hin : store.values.contains key = true
        · rw [if_pos hin]
          rfl
        · rw [if_neg hin]
          exact congrArg (KeyMap.get? · k)
            (KeyMap.erase_of_not_contains (Bool.eq_false_iff.2 hin)).symm

section

variable {s : Store}

theorem Reliable.get (h : s.Reliable) (key : String) : s.get key = .ok (s.values.get? key) := by
  obtain ⟨value, hvalue⟩ := h.reads [] key
  have hvalue' : s.get key = .ok value := hvalue
  rw [Store.get] at hvalue' ⊢
  split at hvalue'
  · cases hvalue'
  · rename_i hrefuses
    rw [if_neg hrefuses]

/-- What holds of a reliable store holds after a change, which is taken. -/
theorem Reliable.change (h : s.Reliable) (c : Change) :
    ∃ t, s.change c = (t, .ok ()) ∧ t.Reliable ∧
      ∀ k, t.values.get? k = (c.applyTo s.values).get? k := by
  have hok : (s.change c).2 = .ok () := h.writes [] c
  refine ⟨(s.change c).1, Prod.ext rfl hok, ⟨?_, ?_⟩, values_change hok⟩
  · exact fun changes => h.reads (c :: changes)
  · exact fun changes => h.writes (c :: changes)

theorem Reliable.put (h : s.Reliable) (key value : String) :
    ∃ t, s.put key value = (t, .ok ()) ∧ t.Reliable ∧ t.values.get? key = some value ∧
      s.SameOutside [key] t := by
  obtain ⟨t, ht, hreliable, hvalues⟩ := h.change (.put key value)
  have hget : ∀ k, t.values.get? k = if k = key then some value else s.values.get? k :=
    fun k => (hvalues k).trans (KeyMap.get?_insert s.values key value k)
  refine ⟨t, ht, hreliable, by rw [hget, if_pos rfl], fun k hk => ?_⟩
  rw [hget, if_neg fun he => hk (List.mem_singleton.2 he)]

theorem Reliable.remove (h : s.Reliable) (key : String) :
    ∃ t, s.remove key = (t, .ok ()) ∧ t.Reliable ∧ t.values.get? key = none ∧
      s.SameOutside [key] t := by
  obtain ⟨t, ht, hreliable, hvalues⟩ := h.change (.remove key)
  have hget : ∀ k, t.values.get? k = if k = key then none else s.values.get? k :=
    fun k => (hvalues k).trans (KeyMap.get?_erase s.values key k)
  refine ⟨t, ht, hreliable, by rw [hget, if_pos rfl], fun k hk => ?_⟩
  rw [hget, if_neg fun he => hk (List.mem_singleton.2 he)]

end

/-! ## A reliable store -/

theorem change_inMemory (values : KeyMap) (disk : Disk) (c : Change) :
    (inMemory values disk).change c = (inMemory (c.applyTo values) disk, .ok ()) := by
  cases c <;> rfl

theorem changeAll_inMemory (values : KeyMap) (disk : Disk) (changes : List Change) :
    ∃ values', (inMemory values disk).changeAll changes = inMemory values' disk := by
  induction changes generalizing values with
  | nil => exact ⟨values, rfl⟩
  | cons c changes ih =>
    show ∃ values', ((inMemory values disk).change c).1.changeAll changes = inMemory values' disk
    rw [change_inMemory]
    exact ih (c.applyTo values)

theorem inMemory_reliable (values : KeyMap) (disk : Disk) : (inMemory values disk).Reliable := by
  refine ⟨?_, ?_⟩
  · intro changes key
    obtain ⟨values', hvalues⟩ := changeAll_inMemory values disk changes
    rw [hvalues]
    exact ⟨_, rfl⟩
  · intro changes c
    obtain ⟨values', hvalues⟩ := changeAll_inMemory values disk changes
    rw [hvalues, change_inMemory]

end Store
end ResolverRace
