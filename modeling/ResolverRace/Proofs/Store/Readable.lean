import ResolverRace.Proofs.Store.Reliable

/-!
# Stores whose writes may fail

A readable store answers every read; a change of it may be refused, or may not get to its file.
Whatever becomes of a change, other keys keep their values, and its own key has the old value or the
new one. What is true of both lasts through any number of changes.

* `Store.Readable` — no read fails, now or after any change.
* `Store.Takes` — every change takes place, even if an error is answered.
* `values_change_or` — what a change leaves that may have failed.
* `values_changeAll` — keys that no change names.
* `GoodSince` — since when nothing has failed in a history.
-/

namespace ResolverRace

/-- Every entry of a history from some place on is good, and one of these has the property; or every
entry is good. -/
def GoodSince {α : Type} (good P : α → Prop) (h : List α) : Prop :=
  ∃ front back, h = front ++ back ∧ (∀ e ∈ back, good e) ∧ (front = [] ∨ ∃ e ∈ back, P e)

theorem goodSince_concat {α : Type} {good P : α → Prop} {h : List α} {e : α}
    (hg : GoodSince good P (h ++ [e])) : good e ∧ (P e ∨ GoodSince good P h) := by
  obtain ⟨front, back, hsplit, hgood, hfrom⟩ := hg
  -- The new entry is the last one of `back`, which is empty only if the whole history is.
  rcases back.eq_nil_or_concat with rfl | ⟨back', f, rfl⟩
  · rcases hfrom with rfl | ⟨_, hnone, _⟩
    · simp at hsplit
    · cases hnone
  · rw [List.concat_eq_append] at hsplit hgood hfrom
    rw [← List.append_assoc] at hsplit
    obtain ⟨rfl, hlast⟩ := List.append_inj' hsplit rfl
    obtain rfl : e = f := List.head_eq_of_cons_eq hlast
    refine ⟨hgood e (by simp), ?_⟩
    have hgood' : ∀ d ∈ back', good d := fun d hd => hgood d (List.mem_append_left _ hd)
    rcases hfrom with rfl | ⟨d, hd, hP⟩
    · exact .inr ⟨[], back', rfl, hgood', .inl rfl⟩
    · rcases List.mem_append.1 hd with hd | hd
      · exact .inr ⟨front, back', rfl, hgood', .inr ⟨d, hd, hP⟩⟩
      · rw [List.mem_singleton.1 hd] at hP
        exact .inl hP

namespace Store

/-- The key that a change is about. -/
def Change.key : Change → String
  | .put key _ => key
  | .remove key => key

/-- The value that a change gives its key. -/
def Change.value? : Change → Option String
  | .put _ value => some value
  | .remove _ => none

theorem Change.get?_applyTo (c : Change) (m : KeyMap) (k : String) :
    (c.applyTo m).get? k = if k = c.key then c.value? else m.get? k := by
  cases c with
  | put key value => exact m.get?_insert key value k
  | remove key => exact m.get?_erase key k

/-- No read fails. Changes refuse no reads, so it stays like that. -/
def Readable (s : Store) : Prop := ∀ key, s.refuses .get key = false

/-- Every change is served from then on, whatever is answered, now and after any other changes. -/
def Takes (s : Store) : Prop :=
  ∀ changes (c : Change) k, ((s.changeAll changes).change c).1.values.get? k =
    (c.applyTo (s.changeAll changes).values).get? k

section

variable {s : Store}

theorem Readable.get (h : s.Readable) (key : String) : s.get key = .ok (s.values.get? key) := by
  rw [Store.get, h key]
  rfl

theorem refusals_change (s : Store) (c : Change) : (s.change c).1.refusals = s.refusals := by
  cases c with
  | put key value =>
    simp only [change, put, putAnyway]
    split
    · rfl
    · split <;> rfl
  | remove key =>
    simp only [change, remove, removeAnyway]
    split
    · rfl
    · split <;> rfl

theorem Readable.change (h : s.Readable) (c : Change) : (s.change c).1.Readable := by
  intro key
  rw [refuses, refusals_change]
  exact h key

theorem Readable.changeAll (h : s.Readable) (changes : List Change) :
    (s.changeAll changes).Readable := by
  induction changes generalizing s with
  | nil => exact h
  | cons c changes ih => exact ih (h.change c)

/-- A change that fails either touches nothing, or takes place in memory alone. -/
theorem values_change_or (s : Store) (c : Change) :
    (∀ k, (s.change c).1.values.get? k = s.values.get? k) ∨
      ∀ k, (s.change c).1.values.get? k = (c.applyTo s.values).get? k := by
  obtain ⟨backing, refusals, disk⟩ := s
  cases c with
  | put key value =>
    simp only [change, put]
    split
    · exact .inl fun _ => rfl
    · cases backing <;> exact .inr fun _ => rfl
  | remove key =>
    simp only [change, remove]
    split
    · exact .inl fun _ => rfl
    · cases backing with
      | memory values => exact .inr fun _ => rfl
      | file store =>
        simp only [removeAnyway, FileStore.remove]
        split
        · exact .inr fun _ => rfl
        · exact .inl fun _ => rfl

/-- Whether or not a change fails, other keys keep their values. -/
theorem values_change_other (s : Store) {c : Change} {k : String} (hk : c.key ≠ k) :
    (s.change c).1.values.get? k = s.values.get? k := by
  rcases s.values_change_or c with h | h
  · exact h k
  · rw [h k, c.get?_applyTo, if_neg hk.symm]

theorem values_change_ok {c : Change} (h : (s.change c).2 = .ok ()) :
    (s.change c).1.values.get? c.key = c.value? := by
  rw [values_change h, c.get?_applyTo, if_pos rfl]

theorem changeAll_append (s : Store) (changes more : List Change) :
    s.changeAll (changes ++ more) = (s.changeAll changes).changeAll more :=
  List.foldl_append

theorem values_changeAll (s : Store) {changes : List Change} {k : String}
    (h : ∀ c ∈ changes, c.key ≠ k) : (s.changeAll changes).values.get? k = s.values.get? k := by
  induction changes generalizing s with
  | nil => rfl
  | cons c changes ih =>
    have hrest : ((s.change c).1.changeAll changes).values.get? k =
        (s.change c).1.values.get? k := ih _ fun d hd => h d (List.mem_cons_of_mem _ hd)
    exact hrest.trans (s.values_change_other (h c (List.mem_cons_self ..)))

/-- What every value of a key has stays so, if every new value has it too. -/
theorem forall_values_changeAll {P : String → Prop} {changes : List Change} {k : String}
    (h : ∀ value, s.values.get? k = some value → P value)
    (hnew : ∀ c ∈ changes, c.key = k → ∀ value, c.value? = some value → P value) :
    ∀ value, (s.changeAll changes).values.get? k = some value → P value := by
  induction changes generalizing s with
  | nil => exact h
  | cons c changes ih =>
    refine ih (s := (s.change c).1) ?_ fun d hd => hnew d (List.mem_cons_of_mem _ hd)
    intro value hvalue
    rcases s.values_change_or c with hold | hgiven
    · exact h value ((hold k).symm.trans hvalue)
    · rw [hgiven k, c.get?_applyTo] at hvalue
      split at hvalue
      · rename_i hk
        exact hnew c (List.mem_cons_self ..) hk.symm value hvalue
      · exact h value hvalue

theorem Reliable.changeAll (h : s.Reliable) (changes : List Change) :
    (s.changeAll changes).Reliable := by
  refine ⟨fun more key => ?_, fun more c => ?_⟩
  · rw [← changeAll_append]
    exact h.reads _ key
  · rw [← changeAll_append]
    exact h.writes _ c

theorem Reliable.takes (h : s.Reliable) : s.Takes :=
  fun changes c => values_change (h.writes changes c)

theorem Takes.change (h : s.Takes) (c : Change) : (s.change c).1.Takes :=
  fun changes => h (c :: changes)

theorem Takes.changeAll (h : s.Takes) (changes : List Change) : (s.changeAll changes).Takes := by
  intro more
  rw [← changeAll_append]
  exact h (changes ++ more)

theorem Takes.value (h : s.Takes) (c : Change) :
    (s.change c).1.values.get? c.key = c.value? := by
  have hvalue : (s.change c).1.values.get? c.key = (c.applyTo s.values).get? c.key := h [] c c.key
  rw [hvalue, c.get?_applyTo, if_pos rfl]

/-- Reads depend on the values, and on what is refused. -/
theorem Readable.get_of_backing {s' : Store} (h : s.Readable) (h' : s'.Readable)
    (hbacking : s'.backing = s.backing) (key : String) : s'.get key = s.get key := by
  rw [h.get, h'.get, values, values, hbacking]

theorem Reliable.readable (h : s.Reliable) : s.Readable := by
  intro key
  obtain ⟨value, hvalue⟩ := h.reads [] key
  have hget : s.get key = .ok value := hvalue
  rw [Store.get] at hget
  split at hget
  · cases hget
  · rename_i hrefuses
    exact Bool.eq_false_iff.2 hrefuses

end

end Store
end ResolverRace
