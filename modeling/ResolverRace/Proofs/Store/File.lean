import ResolverRace.Proofs.Disk
import ResolverRace.Proofs.Json.Indented
import ResolverRace.Proofs.Store.Readable
import ResolverRace.Proofs.Text.Blank

/-!
# What a file store has written is read again

The values of a store are kept in the order of their keys, so the text of a file stands for exactly
one map. Whenever the file of a store was written, it holds all values that are served, those of
earlier changes that did not get there among them.

* `KeyMap.Ordered` — the keys come in order, none twice.
* `valuesOfText?_text` — ordered values are read back from their text.
* `opened_of_replace` — a store that is opened after the file was written serves the same values.
* `Store.InFile` — the values are those of a file, in order.
* `Store.UpToDate` — the next process finds what this one serves; `upToDate_put`,
  `UpToDate.change`.
* `Store.Willing` — nothing is refused but to write the file; `Willing.takes`.
-/

namespace ResolverRace
namespace KeyMap

/-- The keys come in increasing order. -/
def Ordered (m : KeyMap) : Prop := m.entries.Pairwise (·.1 < ·.1)

section

variable {key value : String} {entries : List (String × String)} {m : KeyMap}

theorem mem_insertEntry {e : String × String} (he : e ∈ insertEntry key value entries) :
    e = (key, value) ∨ e ∈ entries := by
  induction entries with
  | nil => exact .inl (List.mem_singleton.1 he)
  | cons entry rest ih =>
    rw [insertEntry] at he
    split at he
    · exact (List.mem_cons.1 he).imp_right (List.mem_cons_of_mem _)
    · split at he
      · exact List.mem_cons.1 he
      · rcases List.mem_cons.1 he with rfl | he
        · exact .inr (List.mem_cons_self ..)
        · exact (ih he).imp_right (List.mem_cons_of_mem _)

theorem pairwise_insertEntry (h : entries.Pairwise (·.1 < ·.1)) :
    (insertEntry key value entries).Pairwise (·.1 < ·.1) := by
  induction entries with
  | nil => exact List.pairwise_singleton ..
  | cons entry rest ih =>
    obtain ⟨hfirst, hrest⟩ := List.pairwise_cons.1 h
    rw [insertEntry]
    split
    · rename_i hkey
      exact List.pairwise_cons.2 ⟨fun e he => hkey ▸ hfirst e he, hrest⟩
    · rename_i hne
      split
      · rename_i hlt
        refine List.pairwise_cons.2 ⟨fun e he => ?_, h⟩
        rcases List.mem_cons.1 he with rfl | he
        · exact hlt
        · exact String.lt_trans hlt (hfirst e he)
      · rename_i hge
        refine List.pairwise_cons.2 ⟨fun e he => ?_, ih hrest⟩
        rcases mem_insertEntry he with rfl | he
        · exact Std.lt_of_le_of_ne (String.not_lt.1 hge) (Ne.symm hne)
        · exact hfirst e he

theorem ordered_empty : empty.Ordered := .nil

theorem Ordered.insert (h : m.Ordered) (key value : String) : (m.insert key value).Ordered :=
  pairwise_insertEntry h

theorem Ordered.erase (h : m.Ordered) (key : String) : (m.erase key).Ordered := h.filter _

theorem ordered_ofList (entries : List (String × String)) : (ofList entries).Ordered := by
  have hgen : ∀ m : KeyMap, m.Ordered →
      (entries.foldl (fun m entry => m.insert entry.1 entry.2) m).Ordered := by
    induction entries with
    | nil => exact fun _ h => h
    | cons entry rest ih => exact fun m h => ih _ (h.insert entry.1 entry.2)
  exact hgen empty ordered_empty

/-- An entry behind all others is put at the end. -/
theorem insertEntry_last (h : ∀ e ∈ entries, e.1 < key) :
    insertEntry key value entries = entries ++ [(key, value)] := by
  induction entries with
  | nil => rfl
  | cons entry rest ih =>
    have hlt : entry.1 < key := h entry (List.mem_cons_self ..)
    have hne : key ≠ entry.1 := fun he => String.lt_irrefl key (he ▸ hlt)
    rw [insertEntry, if_neg hne, if_neg (String.lt_asymm hlt),
      ih fun e he => h e (List.mem_cons_of_mem _ he)]
    rfl

/-- Ordered entries, put in one after another, stay as they are. -/
theorem ofList_entries (h : m.Ordered) : ofList m.entries = m := by
  have hgen : ∀ front back : List (String × String), (front ++ back).Pairwise (·.1 < ·.1) →
      back.foldl (fun (m : KeyMap) entry => m.insert entry.1 entry.2) ⟨front⟩ =
        ⟨front ++ back⟩ := by
    intro front back hback
    induction back generalizing front with
    | nil => rw [List.append_nil]; rfl
    | cons entry rest ih =>
      have hlast : (⟨front⟩ : KeyMap).insert entry.1 entry.2 = ⟨front ++ [entry]⟩ :=
        congrArg KeyMap.mk (insertEntry_last fun e he =>
          (List.pairwise_append.1 hback).2.2 e he entry (List.mem_cons_self ..))
      rw [List.append_cons] at hback ⊢
      rw [List.foldl_cons, hlast, ih _ hback]
  exact hgen [] m.entries h

theorem ofDatum?_entries (entries : List (String × String)) :
    ofDatum? (.record (entries.map fun entry => (entry.1, .text entry.2))) =
      some (ofList entries) := by
  have hread : (entries.map fun entry => (entry.1, Datum.text entry.2)).mapM
      (fun field : String × Datum => field.2.asText?.map (field.1, ·)) = some entries := by
    induction entries with
    | nil => rfl
    | cons entry rest ih =>
      rw [List.map_cons, List.mapM_cons, ih]
      rfl
  exact congrArg (Option.map ofList) hread

end

end KeyMap

namespace FileStore

section

variable {disk disk' : Disk} {path : String} {m : KeyMap}

/-- Ordered values are read back from their text. -/
theorem valuesOfText?_text (h : m.Ordered) : valuesOfText? m.text = some m := by
  have hopen : ∃ cs, m.text.toList = '\x7b' :: cs := by
    by_cases hne : m.entries = []
    · rw [KeyMap.text, hne]
      exact ⟨_, rfl⟩
    · exact ⟨_, Json.toList_indented hne⟩
  have hread : (Json.parse? m.text).bind KeyMap.ofDatum? = some m := by
    rw [KeyMap.text, Json.parse?_indented, Option.bind_some, KeyMap.ofDatum?_entries,
      KeyMap.ofList_entries h]
  rw [valuesOfText?, if_neg, hread]
  -- The opening brace is not trimmed away.
  obtain ⟨cs, hcs⟩ := hopen
  rw [hcs, Text.trimChars_cons_of_not_blank rfl]
  exact Bool.false_ne_true

/-- The values that are read from a file are in order. -/
theorem ordered_of_opened {s : FileStore} (h : opened disk path = .ok s) :
    s.path = path ∧ s.values.Ordered := by
  rw [opened] at h
  split at h
  · split at h
    · rename_i values hvalues
      cases h
      refine ⟨rfl, ?_⟩
      rw [valuesOfText?] at hvalues
      split at hvalues
      · cases hvalues
        exact KeyMap.ordered_empty
      · obtain ⟨datum, _, hdatum⟩ := Option.bind_eq_some_iff.1 hvalues
        rw [KeyMap.ofDatum?.eq_def] at hdatum
        split at hdatum
        · obtain ⟨entries, _, rfl⟩ := Option.map_eq_some_iff.1 hdatum
          exact KeyMap.ordered_ofList entries
        · cases hdatum
    · cases h
  · cases h
    exact ⟨rfl, KeyMap.ordered_empty⟩
  · cases h

theorem readText_of_flush (h : flush disk path m = (disk', .ok ())) :
    disk'.readText path = .ok m.text := by
  rw [flush] at h
  split at h
  · cases h
  · split at h
    · cases h
    · rename_i hwrite
      split at h
      · cases h
      · rename_i hrename
        cases h
        exact Disk.readText_of_replaced hwrite hrename

/-- A store that is opened after the file was written serves the values that were written. -/
theorem opened_of_replace {s s' : FileStore} {hindrance : Option Error} (hm : m.Ordered)
    (h : s.replace disk m hindrance = (s', disk', .ok ())) :
    s' = ⟨s.path, m⟩ ∧ opened disk' s.path = .ok s' := by
  cases hindrance with
  | some e => cases h
  | none =>
    have hparts : ({ s with values := m }, (flush disk s.path m).1, (flush disk s.path m).2) =
        (s', disk', Except.ok ()) := h
    obtain ⟨rfl, hdisk, hresult⟩ : _ ∧ _ ∧ _ := by simpa only [Prod.mk.injEq] using hparts
    have hread := readText_of_flush (Prod.ext hdisk hresult)
    refine ⟨rfl, ?_⟩
    rw [opened, hread]
    simp only [valuesOfText?_text hm]

end

end FileStore

namespace Store

/-- The values of the store are those of the file at this path, in order. -/
def InFile (path : String) (s : Store) : Prop :=
  ∃ m : KeyMap, s.backing = .file ⟨path, m⟩ ∧ m.Ordered

/-- The next process finds what this one serves. -/
def UpToDate (s : Store) : Prop := s.reopened = .ok s

/-- Nothing is refused but to write the file. -/
def Willing (s : Store) : Prop := ∀ r ∈ s.refusals, r.access = .flush

section

variable {s : Store} {path : String}

theorem InFile.of_backing {s' : Store} (h : s.InFile path) (hbacking : s'.backing = s.backing) :
    s'.InFile path := by
  obtain ⟨m, hm, hordered⟩ := h
  exact ⟨m, hbacking.trans hm, hordered⟩

theorem inFile_of_opened {disk : Disk} {file : FileStore}
    (h : FileStore.opened disk path = .ok file) (refusals : List Refusal) (disk' : Disk) :
    (⟨.file file, refusals, disk'⟩ : Store).InFile path := by
  obtain ⟨hpath, hordered⟩ := FileStore.ordered_of_opened h
  exact ⟨file.values, by rw [← hpath], hordered⟩

theorem InFile.reopened (h : s.InFile path) : s.reopened =
    (FileStore.opened s.disk path).map fun store => { s with backing := .file store } := by
  obtain ⟨m, hm, _⟩ := h
  rw [Store.reopened, hm]

theorem ordered_applyTo {m : KeyMap} (h : m.Ordered) (c : Change) : (c.applyTo m).Ordered := by
  cases c with
  | put key value => exact h.insert key value
  | remove key => exact h.erase key

/-- A change of a file store is refused; or it removes a key that is not there; or it takes place in
memory, and an answer without an error says that the file has all values now. -/
theorem change_file {m : KeyMap} (hs : s.backing = .file ⟨path, m⟩) (hm : m.Ordered) (c : Change) :
    (∃ access e, access ≠ .flush ∧ s.refuses access c.key = true ∧ s.change c = (s, .error e)) ∨
    (∃ key, c = .remove key ∧ m.contains key = false ∧ s.change c = (s, .ok ())) ∨
    ∃ disk result,
      s.change c = ({ s with backing := .file ⟨path, c.applyTo m⟩, disk := disk }, result) ∧
        (result = .ok () → FileStore.opened disk path = .ok ⟨path, c.applyTo m⟩) := by
  have hwritten : ∀ hindrance : Option Error, ∃ disk result,
      (⟨path, m⟩ : FileStore).replace s.disk (c.applyTo m) hindrance =
          (⟨path, c.applyTo m⟩, disk, result) ∧
        (result = .ok () → FileStore.opened disk path = .ok ⟨path, c.applyTo m⟩) := by
    intro hindrance
    refine ⟨_, _, rfl, fun hok => ?_⟩
    exact (FileStore.opened_of_replace (ordered_applyTo hm c) (Prod.ext rfl (Prod.ext rfl hok))).2
  cases c with
  | put key value =>
    simp only [change, put, Change.key]
    split
    · rename_i hrefuses
      exact .inl ⟨.put, _, by decide, hrefuses, rfl⟩
    · obtain ⟨disk, result, hreplace, hopened⟩ := hwritten (s.hindrance key)
      refine .inr (.inr ⟨disk, result, ?_, hopened⟩)
      simp only [putAnyway, hs, FileStore.put]
      rw [show m.insert key value = (Change.put key value).applyTo m from rfl, hreplace]
  | remove key =>
    simp only [change, remove, Change.key]
    split
    · rename_i hrefuses
      exact .inl ⟨.remove, _, by decide, hrefuses, rfl⟩
    · simp only [removeAnyway, hs, FileStore.remove]
      split
      · obtain ⟨disk, result, hreplace, hopened⟩ := hwritten (s.hindrance key)
        refine .inr (.inr ⟨disk, result, ?_, hopened⟩)
        rw [show m.erase key = (Change.remove key).applyTo m from rfl, hreplace]
      · rename_i habsent
        refine .inr (.inl ⟨key, rfl, Bool.eq_false_iff.2 habsent, ?_⟩)
        obtain ⟨backing, refusals, disk⟩ := s
        cases hs
        rfl

theorem InFile.change (h : s.InFile path) (c : Change) : (s.change c).1.InFile path := by
  obtain ⟨m, hs, hm⟩ := h
  rcases change_file hs hm c with ⟨_, _, _, _, h⟩ | ⟨_, _, _, h⟩ | ⟨_, _, h, _⟩
  · rw [h]
    exact ⟨m, hs, hm⟩
  · rw [h]
    exact ⟨m, hs, hm⟩
  · rw [h]
    exact ⟨c.applyTo m, rfl, ordered_applyTo hm c⟩

theorem InFile.changeAll (h : s.InFile path) (changes : List Change) :
    (s.changeAll changes).InFile path := by
  induction changes generalizing s with
  | nil => exact h
  | cons c changes ih => exact ih (h.change c)

theorem upToDate_iff (h : s.backing = .file ⟨path, m⟩) :
    s.UpToDate ↔ FileStore.opened s.disk path = .ok ⟨path, m⟩ := by
  obtain ⟨backing, refusals, disk⟩ := s
  cases h
  show (FileStore.opened disk path).map _ = .ok _ ↔ _
  cases FileStore.opened disk path with
  | error e => simp [Except.map]
  | ok store => simp [Except.map]

/-- A change that is answered without an error leaves the file with all values, unless it had nothing
to remove. -/
theorem upToDate_change {c : Change} (h : s.InFile path) (hok : (s.change c).2 = .ok ()) :
    (s.change c).1.UpToDate ∨ ∃ key, c = .remove key ∧ s.change c = (s, .ok ()) := by
  obtain ⟨m, hs, hm⟩ := h
  rcases change_file hs hm c with ⟨_, _, _, _, h⟩ | ⟨key, hc, _, h⟩ | ⟨disk, result, h, hopened⟩
  · rw [h] at hok
    cases hok
  · exact .inr ⟨key, hc, h⟩
  · rw [h] at hok ⊢
    exact .inl ((upToDate_iff rfl).2 (hopened hok))

theorem upToDate_put {key value : String} (h : s.InFile path)
    (hok : (s.put key value).2 = .ok ()) : (s.put key value).1.UpToDate := by
  rcases upToDate_change (c := .put key value) h hok with h | ⟨_, hc, _⟩
  · exact h
  · cases hc

/-- If the file cannot be written it stays as it is. -/
theorem reopened_put {key value : String} (h : s.InFile path) (hput : s.refuses .put key = false)
    (hflush : s.refuses .flush key = true) : (s.put key value).1.reopened = s.reopened := by
  obtain ⟨backing, refusals, disk⟩ := s
  obtain ⟨m, rfl, _⟩ := h
  rw [put, if_neg (Bool.eq_false_iff.1 hput)]
  simp only [putAnyway, FileStore.put, FileStore.replace, hindrance, hflush, if_true, reopened]

theorem UpToDate.change {c : Change} (hs : s.UpToDate) (h : s.InFile path)
    (hok : (s.change c).2 = .ok ()) : (s.change c).1.UpToDate := by
  rcases upToDate_change h hok with h | ⟨_, _, h⟩
  · exact h
  · rw [h]
    exact hs

/-! ## Changes that take place in memory -/

theorem Willing.refuses (h : s.Willing) {access : Access} (haccess : access ≠ .flush)
    (key : String) : s.refuses access key = false := by
  refine Bool.eq_false_iff.2 fun hrefuses => ?_
  obtain ⟨r, hr, hcovers⟩ := List.any_eq_true.1 hrefuses
  rw [Refusal.covers, Bool.and_eq_true, decide_eq_true_iff, h r hr] at hcovers
  exact haccess hcovers.1.symm

theorem Willing.readable (h : s.Willing) : s.Readable := fun key => h.refuses (by decide) key

theorem Willing.change (h : s.Willing) (c : Change) : (s.change c).1.Willing := by
  intro r hr
  rw [refusals_change] at hr
  exact h r hr

theorem Willing.changeAll (h : s.Willing) (changes : List Change) :
    (s.changeAll changes).Willing := by
  induction changes generalizing s with
  | nil => exact h
  | cons c changes ih => exact ih (h.change c)

/-- Whatever is answered, the change is served from then on. -/
theorem Willing.values_change (hw : s.Willing) (h : s.InFile path) (c : Change) (k : String) :
    (s.change c).1.values.get? k = (c.applyTo s.values).get? k := by
  obtain ⟨m, hs, hm⟩ := h
  have hvalues : s.values = m := by rw [values, hs]
  rcases change_file hs hm c with
    ⟨access, _, haccess, hrefuses, _⟩ | ⟨key, rfl, habsent, h⟩ | ⟨_, _, h, _⟩
  · rw [hw.refuses haccess c.key] at hrefuses
    cases hrefuses
  · rw [h, hvalues]
    exact congrArg (KeyMap.get? · k) (KeyMap.erase_of_not_contains habsent).symm
  · rw [h, hvalues]
    rfl

theorem Willing.takes (hw : s.Willing) (h : s.InFile path) : s.Takes := by
  intro changes
  exact (hw.changeAll changes).values_change (h.changeAll changes)

end

end Store
end ResolverRace
