import ResolverRace.Proofs.Session.CatchUp
import ResolverRace.Proofs.Store.File

/-!
# Outcomes reach the file

A file store serves every change at once, whether or not its file could be written, and whatever it
writes is everything. So an outcome that is answered without an error leaves the file with all that
is remembered, the earlier outcomes among it that were answered with errors.

* `Standing.legible` — what is read back of it; all of it if every address is proper.
* `Stored.legible_recordSuccess`, `Stored.legible_recordFailure` — the values that are served
  stand for it after every outcome.
* `Filed` — the trackers on a file store, with `Filed.stored`.
* `outcomes_reach_file` — after an answer without an error the next process remembers the same.
* `port_zero_not_found_again` — but not an address whose text cannot be read.
-/

namespace ResolverRace
namespace Standing

/-- What is read back of it once it is stored: addresses whose texts are no addresses are lost. -/
def legible (t : Standing) : Standing where
  last := t.last.bind fun a => Address.parse? a.text
  demoted := t.demoted.filterMap fun a => Address.parse? a.text

structure Proper (t : Standing) : Prop where
  last : ∀ a, t.last = some a → a.Proper
  demoted : ∀ a ∈ t.demoted, a.Proper

section

variable {t : Standing} {s : Store} {a : Address}

theorem Proper.legible (h : t.Proper) : t.legible = t := by
  have hlast : t.legible.last = t.last := by
    rw [Standing.legible]
    cases hwinner : t.last with
    | none => rfl
    | some a => exact Address.parse?_text (h.last a hwinner)
  have hdemoted : t.legible.demoted = t.demoted := by
    have hread := Address.filterMap_parse?_text h.demoted
    rwa [List.filterMap_map] at hread
  exact congrArg₂ Standing.mk hlast hdemoted

theorem legible_eq_iff : t.legible = t ↔ t.Proper := by
  refine ⟨fun h => ⟨fun a ha => ?_, fun a ha => ?_⟩, Proper.legible⟩
  · rw [← h] at ha
    obtain ⟨b, _, hread⟩ := Option.bind_eq_some_iff.1 ha
    exact Address.proper_of_parse? hread
  · rw [← h] at ha
    obtain ⟨b, _, hread⟩ := List.mem_filterMap.1 ha
    exact Address.proper_of_parse? hread

theorem Proper.succeeded (h : t.Proper) (ha : a.Proper) : (t.succeeded a).Proper where
  last _ hb := Option.some.inj hb ▸ ha
  demoted b hb := h.demoted b (mem_demoted_succeeded.1 hb).1

theorem Proper.failed (h : t.Proper) (ha : a.Proper) : (t.failed a).Proper where
  last b hb := by
    rw [Standing.failed] at hb
    split at hb
    · cases hb
    · exact h.last b hb
  demoted := proper_demoted_failed ha h.demoted

/-- What was loaded had texts to be loaded from. -/
theorem proper_of_load (hs : s.Readable) (h : load s = .ok t) : t.Proper := by
  obtain ⟨hlast, hdemoted⟩ := (load_iff hs).1 h
  refine ⟨fun a ha => ?_, (Stored.mk hlast hdemoted).proper⟩
  obtain ⟨text, _, hread⟩ := Option.bind_eq_some_iff.1 (hlast.trans ha)
  exact Address.proper_of_parse? hread

/-! ## What is served after an outcome -/

theorem demotedOf?_legible (t : Standing) :
    demotedOf? (some (encode (t.demoted.map Address.text))) = some t.legible.demoted := by
  rw [demotedOf?, decode?_encode, Option.map_some, List.filterMap_map]
  rfl

theorem demotedOf?_legible_change (t : Standing) :
    demotedOf? t.demotedChange.value? = some t.legible.demoted := by
  rw [demotedChange]
  split
  · rename_i hempty
    rw [legible, List.isEmpty_iff.1 hempty]
    rfl
  · exact t.demotedOf?_legible

theorem Stored.legible_recordSuccess (h : t.legible.Stored s) (hs : s.Takes) (a : Address) :
    (t.succeeded a).legible.Stored (t.recordSuccess s a).2.1 where
  last := by
    rw [last_recordSuccess hs]
    rfl
  demoted := by
    rw [demoted_recordSuccess hs]
    split
    · exact demotedOf?_legible_change _
    · rename_i hmem
      rw [h.demoted, legible, legible, demoted_succeeded_of_not_mem hmem]

theorem Stored.legible_recordFailure (h : t.legible.Stored s) (hs : s.Takes) (a : Address) :
    (t.failed a).legible.Stored (t.recordFailure s a).2.1 where
  last := by
    rw [last_recordFailure hs, legible, Standing.failed]
    split
    · rfl
    · exact h.last
  demoted := by
    rw [demoted_recordFailure hs]
    exact demotedOf?_legible _

/-! ## What the file holds after an outcome -/

variable {path : String}

/-- The success is put last unless it takes one from the demoted resolvers, which are put or removed
then. -/
theorem recordSuccess_upToDate (hs : s.InFile path) (h : (t.recordSuccess s a).2.2 = .ok ()) :
    (t.recordSuccess s a).2.1.UpToDate := by
  by_cases hmem : a ∈ t.demoted
  · rw [recordSuccess_of_mem hmem, saveDemoted_eq] at h ⊢
    obtain ⟨hput, hsaved⟩ := bothOk_eq_ok.1 h
    have hin : (s.put Store.lastKey a.text).1.InFile path := hs.change (.put Store.lastKey a.text)
    exact (Store.upToDate_put hs hput).change hin hsaved
  · rw [recordSuccess_of_not_mem hmem] at h ⊢
    exact Store.upToDate_put hs h

/-- A failure puts the demoted resolvers at the end. -/
theorem recordFailure_upToDate (hs : s.InFile path) (h : (t.recordFailure s a).2.2 = .ok ()) :
    (t.recordFailure s a).2.1.UpToDate := by
  have hin : (t.cleared s a).1.InFile path := by
    rw [cleared]
    split
    · exact hs.change (.remove Store.lastKey)
    · exact hs
  rw [recordFailure_eq, saveDemoted_eq, demotedChange_failed] at h ⊢
  exact Store.upToDate_put hin (bothOk_eq_ok.1 h).2

end

end Standing

/-! ## Trackers on a file store -/

/-- The tracker was opened on the store of a file, and these outcomes were recorded since. Any write of
the file may fail, for reasons that the disk shows or for others. -/
inductive Filed (path : String) : List Verdict → Tracked → Prop where
  | opened {disk : Disk} {file : FileStore} {refusals : List Refusal} {t : Tracked} :
      FileStore.opened disk path = .ok file → (∀ r ∈ refusals, r.access = .flush) →
      Tracked.opened ⟨.file file, refusals, disk⟩ = .ok t → Filed path [] t
  /-- Between the outcomes the session goes on, and other writes fail; others may write the disk. -/
  | meanwhile {h : List Verdict} {t : Tracked} (session : Session) (refusals : List Refusal)
      (disk : Disk) : Filed path h t → (∀ r ∈ refusals, r.access = .flush) →
      Filed path h
        { t with session := session, store := { t.store with refusals := refusals, disk := disk } }
  /-- Another key of the store is changed, which may fail. -/
  | changed {h : List Verdict} {t : Tracked} (c : Store.Change) : Filed path h t →
      c.key ∉ [Store.lastKey, Store.demotedKey] →
      Filed path h { t with store := (t.store.change c).1 }
  | worked {h : List Verdict} {t : Tracked} (a : Address) : Filed path h t →
      Filed path (h ++ [.worked a]) (t.recordSuccess a).1
  | failed {h : List Verdict} {t : Tracked} (a : Address) (p : Pool) : Filed path h t →
      Filed path (h ++ [.failed a]) (t.recordFailureIn a p).1

/-- The next process, which opens the store again, remembers the same. -/
def Tracked.FoundAgain (t : Tracked) : Prop :=
  ∃ store u, t.store.reopened = .ok store ∧ Tracked.opened store = .ok u ∧ u.standing = t.standing

section

variable {path : String} {h : List Verdict} {t : Tracked} {a : Address}

theorem Filed.store (hf : Filed path h t) : t.store.InFile path ∧ t.store.Willing := by
  induction hf with
  | opened hfile hrefusals hopened =>
    rw [(Tracked.opened_eq_ok hopened).2.1]
    exact ⟨Store.inFile_of_opened hfile _ _, hrefusals⟩
  | meanwhile _ _ _ _ hrefusals ih => exact ⟨ih.1.of_backing rfl, hrefusals⟩
  | changed c _ _ ih => exact ⟨ih.1.change c, ih.2.change c⟩
  | @worked h t a _ ih =>
    obtain ⟨changes, hstore⟩ := t.recordSuccess_store a
    rw [hstore]
    exact ⟨ih.1.changeAll changes, ih.2.changeAll changes⟩
  | @failed h t a p _ ih =>
    obtain ⟨changes, hstore⟩ := t.recordFailureIn_store a p
    rw [hstore]
    exact ⟨ih.1.changeAll changes, ih.2.changeAll changes⟩

theorem Filed.takes (hf : Filed path h t) : t.store.Takes := hf.store.2.takes hf.store.1

/-- The values that are served stand for all that is remembered and can be read back. -/
theorem Filed.stored (hf : Filed path h t) : t.standing.legible.Stored t.store := by
  induction hf with
  | @opened disk file refusals t _ hrefusals hopened =>
    obtain ⟨hload, hstore, _⟩ := Tracked.opened_eq_ok hopened
    have hreadable := Store.Willing.readable (s := ⟨.file file, refusals, disk⟩) hrefusals
    rw [(Standing.proper_of_load hreadable hload).legible, hstore]
    obtain ⟨hlast, hdemoted⟩ := (Standing.load_iff hreadable).1 hload
    exact ⟨hlast, hdemoted⟩
  | meanwhile _ _ _ _ _ ih => exact ⟨ih.last, ih.demoted⟩
  | @changed h t c _ hkey ih =>
    have hkeys : c.key ≠ Store.lastKey ∧ c.key ≠ Store.demotedKey := by simpa using hkey
    refine ⟨?_, ?_⟩
    · show ((t.store.change c).1.values.get? Store.lastKey).bind _ = _
      rw [t.store.values_change_other hkeys.1]
      exact ih.last
    · show Standing.demotedOf? ((t.store.change c).1.values.get? Store.demotedKey) = _
      rw [t.store.values_change_other hkeys.2]
      exact ih.demoted
  | @worked h t a hf ih =>
    have hstored := ih.legible_recordSuccess hf.takes a
    rw [← t.standing.recordSuccess_fst t.store a] at hstored
    exact hstored
  | failed a p hf ih => exact ih.legible_recordFailure hf.takes a

theorem Filed.proper (hf : Filed path h t) (hproper : ∀ v ∈ h, v.address.Proper) :
    t.standing.Proper := by
  induction hf with
  | @opened disk file refusals t _ hrefusals hopened =>
    have hreadable := Store.Willing.readable (s := ⟨.file file, refusals, disk⟩) hrefusals
    exact Standing.proper_of_load hreadable (Tracked.opened_eq_ok hopened).1
  | meanwhile _ _ _ _ _ ih => exact ih hproper
  | changed _ _ _ ih => exact ih hproper
  | @worked h t a _ ih =>
    obtain ⟨hold, ha⟩ := List.forall_mem_append.1 hproper
    have hstanding : (t.recordSuccess a).1.standing = t.standing.succeeded a :=
      Standing.recordSuccess_fst ..
    rw [hstanding]
    exact (ih hold).succeeded (ha _ (List.mem_singleton_self _))
  | failed a p _ ih =>
    obtain ⟨hold, ha⟩ := List.forall_mem_append.1 hproper
    exact (ih hold).failed (ha _ (List.mem_singleton_self _))

/-- With the file up to date, the next process remembers all that can be read back. -/
theorem Filed.foundAgain_iff (hf : Filed path h t) (hdate : t.store.UpToDate) :
    t.FoundAgain ↔ t.standing.Proper := by
  have hload : Standing.load t.store = .ok t.standing.legible :=
    (Standing.load_iff hf.store.2.readable).2 ⟨hf.stored.last, hf.stored.demoted⟩
  have hopened : Tracked.opened t.store = .ok ⟨.idle, t.standing.legible, t.store⟩ := by
    rw [Tracked.opened, hload]
    rfl
  rw [← Standing.legible_eq_iff]
  constructor
  · rintro ⟨store, u, hstore, hu, hsame⟩
    obtain rfl : t.store = store := Except.ok.inj (hdate.symm.trans hstore)
    obtain rfl := Except.ok.inj (hopened.symm.trans hu)
    exact hsame
  · intro hsame
    exact ⟨t.store, _, hdate, hopened, hsame⟩

end

/-- Whenever an outcome is answered without an error, the next process that opens the file remembers
the same, whatever failed before and whatever else was written: so it is if every address that was
reported can be read of a text, and for any others exactly while none such is remembered. -/
theorem outcomes_reach_file {path : String} {h : List Verdict} {t : Tracked}
    (hf : Filed path h t) :
    ((∀ v ∈ h, v.address.Proper) →
      (∀ a, a.Proper → (t.recordSuccess a).2 = .ok () → (t.recordSuccess a).1.FoundAgain) ∧
      ∀ a p, a.Proper → (t.recordFailureIn a p).2.2 = .ok () →
        (t.recordFailureIn a p).1.FoundAgain) ∧
    (∀ a, (t.recordSuccess a).2 = .ok () →
      ((t.recordSuccess a).1.FoundAgain ↔ (t.recordSuccess a).1.standing.Proper)) ∧
    ∀ a p, (t.recordFailureIn a p).2.2 = .ok () →
      ((t.recordFailureIn a p).1.FoundAgain ↔ (t.recordFailureIn a p).1.standing.Proper) := by
  have hworked : ∀ a, (t.recordSuccess a).2 = .ok () →
      ((t.recordSuccess a).1.FoundAgain ↔ (t.recordSuccess a).1.standing.Proper) := fun a hok =>
    (hf.worked a).foundAgain_iff (Standing.recordSuccess_upToDate hf.store.1 hok)
  have hfailed : ∀ a p, (t.recordFailureIn a p).2.2 = .ok () →
      ((t.recordFailureIn a p).1.FoundAgain ↔ (t.recordFailureIn a p).1.standing.Proper) :=
    fun a p hok => (hf.failed a p).foundAgain_iff (Standing.recordFailure_upToDate hf.store.1 hok)
  refine ⟨fun hproper => ⟨fun a ha hok => ?_, fun a p ha hok => ?_⟩, hworked, hfailed⟩
  · exact (hworked a hok).2 ((hf.worked a).proper
      (List.forall_mem_append.2 ⟨hproper, List.forall_mem_singleton.2 ha⟩))
  · exact (hfailed a p hok).2 ((hf.failed a p).proper
      (List.forall_mem_append.2 ⟨hproper, List.forall_mem_singleton.2 ha⟩))

/-- The file holds texts that are no addresses, and cannot be written when the first outcome is
recorded. The second outcome brings both to the file. -/
theorem outcomes_reach_file_after_failed_write :
    let one : Address := ⟨.ip (.v4 ⟨8, 8, 8, 8⟩), 53⟩
    let two : Address := ⟨.name "ns.example", 53⟩
    let values : KeyMap := ⟨[("demoted", "[\"8.8.8.8:53\",\"?\"]"), ("last_successful", "?")]⟩
    let disk : Disk := ⟨[(["s"], .file (some values.text))], []⟩
    let t₀ : Tracked := ⟨.idle, ⟨none, [one]⟩, ⟨.file ⟨"s", values⟩, [⟨.flush, none⟩], disk⟩⟩
    let t₁ := t₀.recordSuccess two
    let t₂ := ({ t₁.1 with store := { t₁.1.store with refusals := [] } } : Tracked).recordFailureIn
      one .empty
    FileStore.opened disk "s" = .ok ⟨"s", values⟩ ∧ Tracked.opened t₀.store = .ok t₀ ∧
      t₁.2 = .error (.store (.refused .flush Store.lastKey)) ∧ t₁.1.store.disk = disk ∧
      t₂.2.2 = .ok () ∧ t₂.1.standing = ⟨some two, [one]⟩ ∧ t₂.1.FoundAgain := by
  intro one two values disk t₀ t₁ t₂
  have hone : one.Proper := Address.parse_proper (s := "8.8.8.8") (by decide)
  have htwo : two.Proper := Address.parse_proper (s := "ns.example") (by decide)
  have hfile : FileStore.opened disk "s" = .ok ⟨"s", values⟩ := by decide +kernel
  have hopened : Tracked.opened t₀.store = .ok t₀ := by decide +kernel
  have hfiled : Filed "s" [.worked two] { t₁.1 with store := { t₁.1.store with refusals := [] } } :=
    .meanwhile .idle [] disk (.worked two (.opened hfile (by decide) hopened)) (by decide)
  have hok : t₂.2.2 = .ok () := by decide +kernel
  obtain ⟨_, hfound⟩ := (outcomes_reach_file hfiled).1 (List.forall_mem_singleton.2 htwo)
  exact ⟨hfile, hopened, rfl, rfl, hok, by decide, hfound one .empty hone hok⟩

/-- A socket may have port zero, and its address is then written as a text that is no address: the
success is answered without an error, and the next process does not remember it. -/
theorem port_zero_not_found_again :
    let a : Address := .ofSocket ⟨.v4 ⟨1, 1, 1, 1⟩, 0⟩
    let t₀ : Tracked := ⟨.idle, ⟨none, []⟩, ⟨.file ⟨"s", .empty⟩, [], ⟨[], []⟩⟩⟩
    let t₁ := t₀.recordSuccess a
    FileStore.opened ⟨[], []⟩ "s" = .ok ⟨"s", .empty⟩ ∧ Tracked.opened t₀.store = .ok t₀ ∧
      t₁.2 = .ok () ∧ t₁.1.standing = ⟨some a, []⟩ ∧
      (t₁.1.store.reopened.bind Tracked.opened).map Tracked.standing = .ok ⟨none, []⟩ ∧
      ¬ t₁.1.FoundAgain := by
  intro a t₀ t₁
  have hnext : (t₁.1.store.reopened.bind Tracked.opened).map Tracked.standing = .ok ⟨none, []⟩ := by
    decide +kernel
  refine ⟨rfl, rfl, rfl, rfl, hnext, ?_⟩
  rintro ⟨store, u, hstore, hu, hsame⟩
  rw [hstore, Except.bind, hu, Except.map, hsame] at hnext
  exact absurd hnext (by decide)

end ResolverRace
