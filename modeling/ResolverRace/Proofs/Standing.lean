import ResolverRace.Proofs.Address.Text
import ResolverRace.Proofs.Json.Compact
import ResolverRace.Proofs.Source.Text
import ResolverRace.Proofs.Store.Reliable
import ResolverRace.Standing

/-!
# What is remembered is stored

As long as no access to the store fails, the store holds what is remembered: loading it again gives
the same last winner and the same demoted resolvers in the same order.

* `Standing.Stored` — a store holds what is remembered.
* `Stored.load` — loading gives it back.
* `Stored.recordSuccess`, `Stored.recordFailure` — every outcome keeps it so, and touches no other
  key.
-/

namespace ResolverRace

namespace Standing

/-- The demoted resolvers that a stored text stands for; no text stands for none. -/
def demotedOf? : Option String → Option (List Address)
  | none => some []
  | some stored => (decode? stored).map (·.filterMap Address.parse?)

/-- The store holds what is remembered. -/
structure Stored (t : Standing) (s : Store) : Prop where
  last : (s.values.get? Store.lastKey).bind Address.parse? = t.last
  demoted : demotedOf? (s.values.get? Store.demotedKey) = some t.demoted

theorem load_congr {s s' : Store} (h : ∀ key, s'.get key = s.get key) : load s' = load s := by
  simp only [load, h]

theorem Stored.load {t : Standing} {s : Store} (h : t.Stored s) (hs : s.Reliable) :
    load s = .ok t := by
  have hlast := h.last
  have hdemoted := h.demoted
  simp only [Standing.load, hs.get, bind, Except.bind, pure, Except.pure, hlast]
  cases hstored : s.values.get? Store.demotedKey with
  | none =>
    rw [hstored] at hdemoted
    have hnone : [] = t.demoted := Option.some.inj hdemoted
    simp only [hnone]
  | some stored =>
    rw [hstored, demotedOf?] at hdemoted
    obtain ⟨entries, hentries, hall⟩ := Option.map_eq_some_iff.1 hdemoted
    simp only [hentries, hall]

/-- What was stored was read from a text once, so it can be stored again. -/
theorem Stored.proper {t : Standing} {s : Store} (h : t.Stored s) : ∀ a ∈ t.demoted, a.Proper := by
  intro a ha
  have hdemoted := h.demoted
  cases hstored : s.values.get? Store.demotedKey with
  | none =>
    rw [hstored] at hdemoted
    have hnone : [] = t.demoted := Option.some.inj hdemoted
    rw [← hnone] at ha
    cases ha
  | some stored =>
    rw [hstored, demotedOf?] at hdemoted
    obtain ⟨entries, _, hall⟩ := Option.map_eq_some_iff.1 hdemoted
    rw [← hall] at ha
    obtain ⟨entry, _, hentry⟩ := List.mem_filterMap.1 ha
    exact Address.proper_of_parse? hentry

/-! ## Storing -/

theorem decode?_encode (texts : List String) : decode? (encode texts) = some texts := by
  have hplain : Json.Plain (.list (texts.map .text)) := by
    refine .list fun item hitem => ?_
    obtain ⟨s, _, rfl⟩ := List.mem_map.1 hitem
    exact .text s
  rw [decode?, encode, Json.parse?_compact hplain]
  exact UserList.asTexts?_texts texts

theorem demotedOf?_encode {as : List Address} (h : ∀ a ∈ as, a.Proper) :
    demotedOf? (some (encode (as.map Address.text))) = some as := by
  rw [demotedOf?, decode?_encode, Option.map_some, Address.filterMap_parse?_text h]

section

variable {t : Standing} {s : Store} {a : Address}

theorem saveDemoted_ok (hs : s.Reliable) (hproper : ∀ a ∈ t.demoted, a.Proper) :
    ∃ s', t.saveDemoted s = (s', .ok ()) ∧ s'.Reliable ∧
      demotedOf? (s'.values.get? Store.demotedKey) = some t.demoted ∧
      s.SameOutside [Store.demotedKey] s' := by
  by_cases hempty : t.demoted.isEmpty = true
  · obtain ⟨s', hs', hreliable, hvalue, hsame⟩ := hs.remove Store.demotedKey
    refine ⟨s', by rw [saveDemoted, if_pos hempty, hs'], hreliable, ?_, hsame⟩
    rw [hvalue, List.isEmpty_iff.1 hempty]
    rfl
  · obtain ⟨s', hs', hreliable, hvalue, hsame⟩ :=
      hs.put Store.demotedKey (encode (t.demoted.map Address.text))
    refine ⟨s', by rw [saveDemoted, if_neg hempty, hs'], hreliable, ?_, hsame⟩
    rw [hvalue, demotedOf?_encode hproper]

/-- A success is recorded, and stored where nothing else is. -/
theorem Stored.recordSuccess (h : t.Stored s) (hs : s.Reliable) (ha : a.Proper) :
    ∃ s', t.recordSuccess s a = (t.succeeded a, s', .ok ()) ∧ s'.Reliable ∧
      (t.succeeded a).Stored s' ∧ s.SameOutside [Store.lastKey, Store.demotedKey] s' := by
  obtain ⟨s₁, hs₁, hreliable₁, hvalue₁, hsame₁⟩ := hs.put Store.lastKey a.text
  have hlast₁ : (s₁.values.get? Store.lastKey).bind Address.parse? = some a := by
    rw [hvalue₁]
    exact Address.parse?_text ha
  rw [Standing.recordSuccess]
  simp only [hs₁]
  split
  · have hproper : ∀ b ∈ (t.succeeded a).demoted, b.Proper := by
      intro b hb
      exact h.proper b (mem_demoted_succeeded.1 hb).1
    obtain ⟨s₂, hs₂, hreliable₂, hdemoted₂, hsame₂⟩ := saveDemoted_ok hreliable₁ hproper
    refine ⟨s₂, by rw [hs₂]; rfl, hreliable₂, ⟨?_, hdemoted₂⟩, hsame₁.trans hsame₂⟩
    rw [hsame₂ Store.lastKey (by decide)]
    exact hlast₁
  · rename_i hnot
    have hkept : (t.succeeded a).demoted = t.demoted := by
      refine List.filter_eq_self.2 fun b hb => ?_
      simpa using fun (he : b = a) => hnot (he ▸ hb)
    refine ⟨s₁, rfl, hreliable₁, ⟨hlast₁, ?_⟩, hsame₁.trans (.refl [Store.demotedKey] s₁)⟩
    rw [hkept, hsame₁ Store.demotedKey (by decide)]
    exact h.demoted

/-- The last winner is forgotten in the store when it is forgotten. -/
theorem Stored.clearLast (h : t.Stored s) (hs : s.Reliable) (a : Address) :
    ∃ s', (if t.last = some a then s.remove Store.lastKey else (s, .ok ())) = (s', .ok ()) ∧
      s'.Reliable ∧ (s'.values.get? Store.lastKey).bind Address.parse? = (t.failed a).last ∧
      s.SameOutside [Store.lastKey] s' := by
  by_cases hlast : t.last = some a
  · obtain ⟨s', hs', hreliable, hvalue, hsame⟩ := hs.remove Store.lastKey
    refine ⟨s', by rw [if_pos hlast, hs'], hreliable, ?_, hsame⟩
    rw [hvalue, failed, if_pos hlast]
    rfl
  · refine ⟨s, by rw [if_neg hlast], hs, ?_, .refl _ s⟩
    rw [failed, if_neg hlast]
    exact h.last

/-- A failure is recorded, and stored where nothing else is. -/
theorem Stored.recordFailure (h : t.Stored s) (hs : s.Reliable) (ha : a.Proper) :
    ∃ s', t.recordFailure s a = (t.failed a, s', .ok ()) ∧ s'.Reliable ∧
      (t.failed a).Stored s' ∧ s.SameOutside [Store.lastKey, Store.demotedKey] s' := by
  obtain ⟨s₁, hs₁, hreliable₁, hlast₁, hsame₁⟩ := h.clearLast hs a
  have hproper : ∀ b ∈ (t.failed a).demoted, b.Proper := by
    intro b hb
    rcases mem_demoted_failed.1 hb with hb | rfl
    · exact h.proper b hb
    · exact ha
  obtain ⟨s₂, hs₂, hreliable₂, hdemoted₂, hsame₂⟩ := saveDemoted_ok hreliable₁ hproper
  refine ⟨s₂, ?_, hreliable₂, ⟨?_, hdemoted₂⟩, hsame₁.trans hsame₂⟩
  · rw [Standing.recordFailure]
    simp only [hs₁, hs₂]
    rfl
  · rw [hsame₂ Store.lastKey (by decide)]
    exact hlast₁

end

end Standing
end ResolverRace
