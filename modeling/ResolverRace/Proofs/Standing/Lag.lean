import ResolverRace.Proofs.Standing
import ResolverRace.Proofs.Store.Readable

/-!
# How far the store lags behind

An outcome writes only the keys that it changes, and a write may be refused. What an earlier refusal
left out stays out until an outcome writes that key again: a success writes the last winner always,
and the demoted resolvers only if it takes one from them; a failure writes the demoted resolvers
always, and the last winner only if that is who failed.

* `Standing.LastStored`, `Standing.DemotedStored` — one key is up to date; `load_iff` for both.
* `OfOutcome` — the changes that outcomes make, stored or not.
* `recordSuccess_lastStored`, `recordFailure_demotedStored` — the key that is always written.
* `recordSuccess_demotedStored`, `recordFailure_lastStored` — what becomes of the other one.
* `last_recordSuccess`, `demoted_recordSuccess`, `last_recordFailure`, `demoted_recordFailure` — the
  values if every change takes place.
-/

namespace ResolverRace
namespace Standing

/-- The store holds the last winner, or that there is none. -/
def LastStored (t : Standing) (s : Store) : Prop :=
  (s.values.get? Store.lastKey).bind Address.parse? = t.last

/-- The store holds the demoted resolvers. -/
def DemotedStored (t : Standing) (s : Store) : Prop :=
  demotedOf? (s.values.get? Store.demotedKey) = some t.demoted

/-- The changes that outcomes make. -/
inductive OfOutcome : Store.Change → Prop where
  | putLast (a : Address) : OfOutcome (.put Store.lastKey a.text)
  | removeLast : OfOutcome (.remove Store.lastKey)
  | putDemoted (as : List Address) : OfOutcome (.put Store.demotedKey (encode (as.map Address.text)))
  | removeDemoted : OfOutcome (.remove Store.demotedKey)

theorem OfOutcome.key_mem {c : Store.Change} (h : OfOutcome c) :
    c.key ∈ [Store.lastKey, Store.demotedKey] := by
  cases h <;> simp [Store.Change.key]

theorem bothOk_eq_ok {first second : Except Error Unit} :
    bothOk first second = .ok () ↔ first = .ok () ∧ second = .ok () := by
  cases first <;> simp [bothOk]

section

variable {t u : Standing} {s s' : Store} {a : Address}

theorem load_readable (hs : s.Readable) :
    load s = match demotedOf? (s.values.get? Store.demotedKey) with
      | some demoted => .ok ⟨(s.values.get? Store.lastKey).bind Address.parse?, demoted⟩
      | none => .error .encoding := by
  simp only [load, hs.get, bind, Except.bind, pure, Except.pure]
  cases s.values.get? Store.demotedKey with
  | none => rfl
  | some stored =>
    simp only [demotedOf?]
    cases decode? stored <;> rfl

/-- Loading gives what is remembered exactly if both keys are up to date. -/
theorem load_iff (hs : s.Readable) : load s = .ok t ↔ t.LastStored s ∧ t.DemotedStored s := by
  rw [load_readable hs, LastStored, DemotedStored]
  cases demotedOf? (s.values.get? Store.demotedKey) with
  | none => simp
  | some demoted =>
    obtain ⟨last', demoted'⟩ := t
    simp

theorem LastStored.congr (h : t.LastStored s) (hlast : u.last = t.last)
    (hvalue : s'.values.get? Store.lastKey = s.values.get? Store.lastKey) : u.LastStored s' := by
  rw [LastStored, hlast, hvalue]
  exact h

theorem DemotedStored.congr (h : t.DemotedStored s) (hdemoted : u.demoted = t.demoted)
    (hvalue : s'.values.get? Store.demotedKey = s.values.get? Store.demotedKey) :
    u.DemotedStored s' := by
  rw [DemotedStored, hdemoted, hvalue]
  exact h

/-! ## The demoted resolvers -/

/-- The change that stores the demoted resolvers. -/
def demotedChange (t : Standing) : Store.Change :=
  if t.demoted.isEmpty then .remove Store.demotedKey
  else .put Store.demotedKey (encode (t.demoted.map Address.text))

theorem saveDemoted_eq (t : Standing) (s : Store) : t.saveDemoted s = s.change t.demotedChange := by
  rw [saveDemoted, demotedChange]
  split <;> rfl

@[simp] theorem demotedChange_key (t : Standing) : t.demotedChange.key = Store.demotedKey := by
  rw [demotedChange]
  split <;> rfl

theorem demotedChange_ofOutcome (t : Standing) : OfOutcome t.demotedChange := by
  rw [demotedChange]
  split
  · exact .removeDemoted
  · exact .putDemoted t.demoted

theorem demotedOf?_demotedChange (hproper : ∀ a ∈ t.demoted, a.Proper) :
    demotedOf? t.demotedChange.value? = some t.demoted := by
  rw [demotedChange]
  split
  · rename_i hempty
    rw [List.isEmpty_iff.1 hempty]
    rfl
  · exact demotedOf?_encode hproper

theorem saveDemoted_last (t : Standing) (s : Store) :
    (t.saveDemoted s).1.values.get? Store.lastKey = s.values.get? Store.lastKey := by
  rw [saveDemoted_eq]
  exact s.values_change_other (by rw [demotedChange_key]; decide)

theorem saveDemoted_stored (hproper : ∀ a ∈ t.demoted, a.Proper)
    (h : (t.saveDemoted s).2 = .ok ()) : t.DemotedStored (t.saveDemoted s).1 := by
  rw [saveDemoted_eq] at h ⊢
  have hvalue := Store.values_change_ok h
  rw [demotedChange_key] at hvalue
  rw [DemotedStored, hvalue]
  exact demotedOf?_demotedChange hproper

/-! ## A success -/

theorem recordSuccess_of_mem (h : a ∈ t.demoted) (s : Store) :
    t.recordSuccess s a =
      (t.succeeded a, ((t.succeeded a).saveDemoted (s.put Store.lastKey a.text).1).1,
        bothOk (s.put Store.lastKey a.text).2
          ((t.succeeded a).saveDemoted (s.put Store.lastKey a.text).1).2) := by
  rw [recordSuccess]
  exact if_pos h

theorem recordSuccess_of_not_mem (h : a ∉ t.demoted) (s : Store) :
    t.recordSuccess s a = (t.succeeded a, s.put Store.lastKey a.text) := by
  rw [recordSuccess]
  exact if_neg h

/-- Without one to take from them, a success leaves the demoted resolvers as they are. -/
theorem demoted_succeeded_of_not_mem (h : a ∉ t.demoted) :
    (t.succeeded a).demoted = t.demoted := by
  refine List.filter_eq_self.2 fun b hb => ?_
  simpa using fun (he : b = a) => h (he ▸ hb)

/-- A success makes the same changes of any store. -/
theorem recordSuccess_changes (t : Standing) (a : Address) :
    ∃ changes, (∀ s, (t.recordSuccess s a).2.1 = s.changeAll changes) ∧
      ∀ c ∈ changes, OfOutcome c := by
  by_cases h : a ∈ t.demoted
  · refine ⟨[.put Store.lastKey a.text, (t.succeeded a).demotedChange], fun s => ?_, ?_⟩
    · rw [recordSuccess_of_mem h, saveDemoted_eq]
      rfl
    · exact List.forall_mem_cons.2
        ⟨.putLast a, List.forall_mem_singleton.2 (demotedChange_ofOutcome _)⟩
  · refine ⟨[.put Store.lastKey a.text], fun s => by rw [recordSuccess_of_not_mem h]; rfl, ?_⟩
    exact List.forall_mem_singleton.2 (.putLast a)

theorem put_lastStored (ha : a.Proper) (hlast : t.last = some a)
    (h : (s.put Store.lastKey a.text).2 = .ok ()) :
    t.LastStored (s.put Store.lastKey a.text).1 := by
  have hvalue : (s.put Store.lastKey a.text).1.values.get? Store.lastKey = some a.text :=
    Store.values_change_ok (c := .put Store.lastKey a.text) h
  rw [LastStored, hvalue, hlast]
  exact Address.parse?_text ha

theorem recordSuccess_lastStored (ha : a.Proper) (h : (t.recordSuccess s a).2.2 = .ok ()) :
    (t.succeeded a).LastStored (t.recordSuccess s a).2.1 := by
  by_cases hmem : a ∈ t.demoted
  · rw [recordSuccess_of_mem hmem] at h ⊢
    have hput := put_lastStored (t := t.succeeded a) ha rfl (bothOk_eq_ok.1 h).1
    exact hput.congr rfl (saveDemoted_last _ _)
  · rw [recordSuccess_of_not_mem hmem] at h ⊢
    exact put_lastStored ha rfl h

/-- A success that is stored leaves the demoted resolvers behind if they were behind and it takes
none from them. -/
theorem recordSuccess_demotedStored (hproper : ∀ b ∈ t.demoted, b.Proper)
    (h : (t.recordSuccess s a).2.2 = .ok ()) :
    (t.succeeded a).DemotedStored (t.recordSuccess s a).2.1 ↔
      a ∈ t.demoted ∨ t.DemotedStored s := by
  by_cases hmem : a ∈ t.demoted
  · rw [recordSuccess_of_mem hmem] at h ⊢
    have hproper' : ∀ b ∈ (t.succeeded a).demoted, b.Proper := by
      intro b hb
      exact hproper b (mem_demoted_succeeded.1 hb).1
    exact iff_of_true (saveDemoted_stored hproper' (bothOk_eq_ok.1 h).2) (.inl hmem)
  · rw [recordSuccess_of_not_mem hmem] at h ⊢
    have hother : (s.put Store.lastKey a.text).1.values.get? Store.demotedKey =
        s.values.get? Store.demotedKey :=
      s.values_change_other (c := .put Store.lastKey a.text)
        (show Store.lastKey ≠ Store.demotedKey by decide)
    have hsame : (t.succeeded a).demoted = t.demoted := demoted_succeeded_of_not_mem hmem
    rw [or_iff_right hmem]
    exact ⟨fun hd => hd.congr hsame.symm hother.symm, fun hd => hd.congr hsame hother⟩

/-! ## A failure -/

/-- The store after the last winner is forgotten, if that is who failed. -/
def cleared (t : Standing) (s : Store) (a : Address) : Store × Except Error Unit :=
  if t.last = some a then s.remove Store.lastKey else (s, .ok ())

theorem recordFailure_eq (t : Standing) (s : Store) (a : Address) :
    t.recordFailure s a = (t.failed a, ((t.failed a).saveDemoted (t.cleared s a).1).1,
      bothOk (t.cleared s a).2 ((t.failed a).saveDemoted (t.cleared s a).1).2) := rfl

/-- A failure makes the same changes of any store. -/
theorem recordFailure_changes (t : Standing) (a : Address) :
    ∃ changes, (∀ s, (t.recordFailure s a).2.1 = s.changeAll changes) ∧
      ∀ c ∈ changes, OfOutcome c := by
  by_cases h : t.last = some a
  · refine ⟨[.remove Store.lastKey, (t.failed a).demotedChange], fun s => ?_, ?_⟩
    · rw [recordFailure_eq, saveDemoted_eq, cleared, if_pos h]
      rfl
    · exact List.forall_mem_cons.2
        ⟨.removeLast, List.forall_mem_singleton.2 (demotedChange_ofOutcome _)⟩
  · refine ⟨[(t.failed a).demotedChange], fun s => ?_, ?_⟩
    · rw [recordFailure_eq, saveDemoted_eq, cleared, if_neg h]
      rfl
    · exact List.forall_mem_singleton.2 (demotedChange_ofOutcome _)

theorem proper_demoted_failed (ha : a.Proper) (hproper : ∀ b ∈ t.demoted, b.Proper) :
    ∀ b ∈ (t.failed a).demoted, b.Proper := by
  intro b hb
  rcases mem_demoted_failed.1 hb with hb | rfl
  · exact hproper b hb
  · exact ha

theorem recordFailure_demotedStored (ha : a.Proper) (hproper : ∀ b ∈ t.demoted, b.Proper)
    (h : (t.recordFailure s a).2.2 = .ok ()) :
    (t.failed a).DemotedStored (t.recordFailure s a).2.1 :=
  saveDemoted_stored (proper_demoted_failed ha hproper) (bothOk_eq_ok.1 h).2

/-- A failure that is stored leaves the last winner behind if it was behind and is not who
failed. -/
theorem recordFailure_lastStored (h : (t.recordFailure s a).2.2 = .ok ()) :
    (t.failed a).LastStored (t.recordFailure s a).2.1 ↔ t.last = some a ∨ t.LastStored s := by
  have hcleared : (t.cleared s a).2 = .ok () := (bothOk_eq_ok.1 h).1
  have hkept : (t.recordFailure s a).2.1.values.get? Store.lastKey =
      (t.cleared s a).1.values.get? Store.lastKey := saveDemoted_last _ _
  by_cases hlast : t.last = some a
  · rw [cleared, if_pos hlast] at hcleared hkept
    have hnone : (s.remove Store.lastKey).1.values.get? Store.lastKey = none :=
      Store.values_change_ok (c := .remove Store.lastKey) hcleared
    refine iff_of_true ?_ (.inl hlast)
    rw [LastStored, hkept, hnone, failed, if_pos hlast]
    rfl
  · rw [cleared, if_neg hlast] at hkept
    have hsame : (t.failed a).last = t.last := if_neg hlast
    rw [or_iff_right hlast]
    exact ⟨fun hl => hl.congr hsame.symm hkept.symm, fun hl => hl.congr hsame hkept⟩

/-! ## If every change takes place -/

theorem last_recordSuccess (hs : s.Takes) (t : Standing) (a : Address) :
    (t.recordSuccess s a).2.1.values.get? Store.lastKey = some a.text := by
  have hvalue : (s.put Store.lastKey a.text).1.values.get? Store.lastKey = some a.text :=
    hs.value (.put Store.lastKey a.text)
  by_cases hmem : a ∈ t.demoted
  · rw [recordSuccess_of_mem hmem]
    exact (saveDemoted_last _ _).trans hvalue
  · rw [recordSuccess_of_not_mem hmem]
    exact hvalue

theorem demoted_recordSuccess (hs : s.Takes) (t : Standing) (a : Address) :
    (t.recordSuccess s a).2.1.values.get? Store.demotedKey =
      if a ∈ t.demoted then (t.succeeded a).demotedChange.value?
      else s.values.get? Store.demotedKey := by
  by_cases hmem : a ∈ t.demoted
  · have hvalue := (hs.change (.put Store.lastKey a.text)).value (t.succeeded a).demotedChange
    rw [demotedChange_key] at hvalue
    rw [recordSuccess_of_mem hmem, saveDemoted_eq, if_pos hmem]
    exact hvalue
  · rw [recordSuccess_of_not_mem hmem, if_neg hmem]
    exact s.values_change_other (c := .put Store.lastKey a.text)
      (show Store.lastKey ≠ Store.demotedKey by decide)

theorem last_recordFailure (hs : s.Takes) (t : Standing) (a : Address) :
    (t.recordFailure s a).2.1.values.get? Store.lastKey =
      if t.last = some a then none else s.values.get? Store.lastKey := by
  have hkept : (t.recordFailure s a).2.1.values.get? Store.lastKey =
      (t.cleared s a).1.values.get? Store.lastKey := saveDemoted_last _ _
  rw [hkept, cleared]
  split
  · exact hs.value (.remove Store.lastKey)
  · rfl

/-- A failure leaves somebody demoted, so it puts the demoted resolvers and never removes them. -/
theorem demotedChange_failed (t : Standing) (a : Address) : (t.failed a).demotedChange =
    .put Store.demotedKey (encode ((t.failed a).demoted.map Address.text)) := by
  simp [demotedChange, failed]

theorem demoted_recordFailure (hs : s.Takes) (t : Standing) (a : Address) :
    (t.recordFailure s a).2.1.values.get? Store.demotedKey =
      some (encode ((t.failed a).demoted.map Address.text)) := by
  have hcleared : (t.cleared s a).1.Takes := by
    rw [cleared]
    split
    · exact hs.change (.remove Store.lastKey)
    · exact hs
  have hvalue := hcleared.value (t.failed a).demotedChange
  rw [demotedChange_failed] at hvalue
  rw [recordFailure_eq, saveDemoted_eq, demotedChange_failed]
  exact hvalue

end

end Standing
end ResolverRace
