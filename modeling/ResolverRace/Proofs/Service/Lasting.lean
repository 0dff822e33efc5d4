import Mathlib.Data.List.TakeWhile
import ResolverRace.Proofs.Service.Agreement
import ResolverRace.Proofs.Service.Mirrored
import ResolverRace.Proofs.Service.Restart
import ResolverRace.Proofs.Store.Writable

/-!
# Services that last

If a file can be written at any time, then all that a service on it has is in the file, whatever was
edited or reported. A new service on the file agrees with the old one in everything but the selected
source, which it chooses anew: the stored one if it can be loaded, or else the configured one. The
choice is that of the old service, unless a list was created that was passed over at the start.

* `Service.Lasting`, `Lasting.serve` — all that the service has is in its file.
* `serve_of_not_edited` — what an edit leaves that was not made.
* `Lasting.create_again` — what a new service has.
* `passedOver` — the sources that come before the chosen one, but cannot be loaded.
* `Service.Chosen`, `Chosen.serve` — the selected source is the one that a new service chooses.
-/

namespace ResolverRace

theorem Store.UpToDate.changeAll {s : Store} {path : String} (hs : s.UpToDate)
    (h : s.Unhindered path) (changes : List Store.Change) : (s.changeAll changes).UpToDate := by
  induction changes generalizing s with
  | nil => exact hs
  | cons c changes ih =>
    obtain ⟨hok, hnext⟩ := h.change c
    exact ih (hs.change h.inFile hok) hnext

/-- The first element that passes a test is the first to pass another one, if it does and none before
it does. -/
theorem find?_takeWhile_congr {α : Type} {p q : α → Bool} {l : List α}
    (hbefore : ∀ a ∈ l.takeWhile (!p ·), q a = false)
    (hfound : ∀ a, l.find? p = some a → q a = true) :
    l.find? q = l.find? p ∧ l.takeWhile (!q ·) = l.takeWhile (!p ·) := by
  induction l with
  | nil => exact ⟨rfl, rfl⟩
  | cons a l ih =>
    cases hp : p a with
    | true =>
      have hq : q a = true := hfound a (by simp [hp])
      simp [hp, hq]
    | false =>
      have hq : q a = false := hbefore a (by simp [hp])
      obtain ⟨hfind, htake⟩ := ih (fun b hb => hbefore b (by simp [hp, hb]))
        (fun b hb => hfound b (by simp [hp, hb]))
      simp [hp, hq, hfind, htake]

namespace Catalogue

theorem resolves_upsert_other {c : Catalogue} {l : UserList} {source : Source}
    (h : source ≠ .custom l.id) : (c.upsert l).resolves source = c.resolves source := by
  cases source with
  | builtin => rfl
  | custom id =>
    have hid : id ≠ l.id := fun he => h (congrArg Source.custom he)
    simp only [resolves, find?_upsert, if_neg hid]

theorem resolves_remove_other {c : Catalogue} {id : String} {source : Source}
    (h : source ≠ .custom id) : (c.remove id).resolves source = c.resolves source := by
  rw [← isSome_entries?, entries?_remove h, isSome_entries?]

end Catalogue

namespace Service

/-- All that the service has is in the file at this path, which can be written at any time. -/
structure Lasting (settings : Settings) (path : String) (s : Service) : Prop where
  mirrored : s.Mirrored settings
  unhindered : s.store.Unhindered path
  upToDate : s.store.UpToDate
  stored : s.standing.Stored s.store

section

variable {settings : Settings} {path : String} {s s' : Service} {probe : Probe}
  {o o' : Operation} {chance : Random.Stream}

theorem lasting_of_create {disk : Disk} {file : FileStore}
    (hfile : FileStore.opened disk path = .ok file) (hwritable : FileStore.Writable disk path)
    (hs : create settings ⟨.file file, [], disk⟩ chance = .ok s) : s.Lasting settings path := by
  obtain ⟨_, _, hstore, hload, _⟩ := create_cases hs
  have hunhindered := Store.unhindered_of_opened hfile hwritable
  have hreliable := hunhindered.reliable
  have hupToDate : (⟨.file file, [], disk⟩ : Store).UpToDate := by
    obtain ⟨path', values⟩ := file
    obtain ⟨rfl, _⟩ := FileStore.ordered_of_opened hfile
    exact (Store.upToDate_iff rfl).2 hfile
  obtain ⟨hlast, hdemoted⟩ := (Standing.load_iff hreliable.readable).1 hload
  refine ⟨mirrored_of_create hreliable.readable hreliable.takes hs, ?_, ?_, ?_⟩
  · rw [hstore]
    exact hunhindered
  · rw [hstore]
    exact hupToDate
  · rw [hstore]
    exact ⟨hlast, hdemoted⟩

theorem stored_notify {a : Address} (h : s.standing.Stored s.store) (hs : s.store.Reliable)
    (ha : a.Proper) (worked : Bool) :
    (s.notify a worked).2 = .ok () ∧
      (s.notify a worked).1.standing.Stored (s.notify a worked).1.store := by
  cases worked with
  | true =>
    obtain ⟨store', hrecord, _, hstored, _⟩ := h.recordSuccess hs ha
    simp only [notify, if_true, Tracked.recordSuccess, hrecord]
    exact ⟨trivial, hstored⟩
  | false =>
    obtain ⟨store', hrecord, _, hstored, _⟩ := h.recordFailure hs ha
    simp only [notify, Bool.false_eq_true, if_false, Tracked.recordFailureIn, Tracked.recordFailure,
      hrecord]
    exact ⟨trivial, hstored⟩

theorem Lasting.serve (h : s.Lasting settings path) (ho : o.Akin o') :
    (s.serve probe o).Lasting settings path := by
  obtain ⟨changes, hstore, _⟩ := serve_changes probe s o
  have hreliable := h.unhindered.reliable
  refine ⟨h.mirrored.serve probe o, ?_, ?_, ?_⟩
  · rw [hstore]
    exact h.unhindered.changeAll changes
  · rw [hstore]
    exact h.upToDate.changeAll h.unhindered changes
  · have harranged (harranges : o.arranges = true) :
        (s.serve probe o).standing.Stored (s.serve probe o).store := by
      have hs := arranges_serve probe s harranges
      rw [hs.standing]
      exact h.stored.frame (fun k hk => hs.value_eq hk) (by decide) (by decide)
    cases ho with
    | upsertList | removeList | addEntry | removeEntry => exact harranged rfl
    | notify worked hread =>
      exact (stored_notify h.stored hreliable (Address.parse_proper hread) worked).2

/-- If no write fails, an edit that is not answered as made leaves the service as it was. -/
theorem serve_of_not_edited {answer : Except Error Bool} (probe : Probe)
    (hs : s.store.Reliable) (ho : s.edited? o = some answer) (hanswer : answer ≠ .ok true) :
    s.serve probe o = s := by
  have hedit : s.Edit o answer (s.serve probe o) := edit_serve ho
  generalize s.serve probe o = s' at hedit ⊢
  cases hedit with
  | nothing _ => rfl
  | @saved t hstore _ =>
    have ht : t.store.Reliable := hstore ▸ hs
    have hsaved : t.saveLists.2 = .ok () := ht.writes [] (.put Store.listsKey _)
    rw [hsaved] at hanswer
    exact absurd rfl hanswer
  | @unsaved t e _ hstore he =>
    have ht : t.store.Reliable := hstore ▸ hs
    have hsaved : t.saveLists.2 = .ok () := ht.writes [] (.put Store.listsKey _)
    rw [hsaved] at he
    cases he
  | @deposed t _ hstore _ =>
    have ht : t.store.Reliable := hstore ▸ hs
    have hchosen : (t.saveLists.1.saveSource .builtin).2 = .ok () :=
      ht.writes [.put Store.listsKey _] (.put Store.sourceKey Source.builtin.text)
    rw [hchosen] at hanswer
    exact absurd rfl hanswer

/-! ## New services -/

theorem Lasting.create_again (h : s.Lasting settings path) (chance : Random.Stream) :
    ∃ s', create settings s.store chance = .ok s' ∧ s.Agrees [Store.sourceKey] s' ∧
      s'.store = s.store ∧
      s'.source = chooseSource s.catalogue s.recalledSource? settings.selection.source := by
  obtain ⟨s', hs', hlists, hsource⟩ := h.mirrored.create_again (fun _ => rfl) chance
  obtain ⟨_, _, hstore, hload, _⟩ := create_cases hs'
  have hstanding : s'.standing = s.standing :=
    Except.ok.inj (hload.symm.trans (h.stored.load h.unhindered.reliable))
  refine ⟨s', hs', ⟨hlists, hstanding, fun hkey => absurd (List.mem_singleton.2 rfl) hkey, ?_⟩,
    hstore, hsource⟩
  rw [hstore]
  exact .refl _ _

/-- The sources that a new service would choose rather than the one that it does choose, if lists of
these names were there. -/
def passedOver (settings : Settings) (s : Service) : List Source :=
  (s.recalledSource?.toList ++ [settings.selection.source]).takeWhile (!s.catalogue.resolves ·)

/-- The selected source is the one that a new service chooses, and none but these is passed over. -/
structure Chosen (settings : Settings) (passed : List Source) (s : Service) : Prop where
  source : chooseSource s.catalogue s.recalledSource? settings.selection.source = s.source
  passed : passedOver settings s ⊆ passed

variable {passed : List Source}

theorem chosen_of_create {store : Store} (hs : store.Readable)
    (h : create settings store chance = .ok s) : s.Chosen settings (passedOver settings s) := by
  obtain ⟨stored, hstored, hsource⟩ := source_of_create h
  obtain ⟨_, _, rfl, _⟩ := create_cases h
  have hrecalled : stored = s.recalledSource? := by
    rw [storedSource, hs.get] at hstored
    exact (Except.ok.inj hstored).symm
  rw [hrecalled] at hsource
  exact ⟨hsource.symm, fun _ h => h⟩

/-- Services that agree in everything pass the same sources over, and choose the same one. -/
theorem Chosen.agrees (h : s.Chosen settings passed) (ha : s.Agrees [] s') :
    s'.Chosen settings passed := by
  have hresolves : s'.catalogue.resolves = s.catalogue.resolves :=
    funext (Catalogue.resolves_congr ha.lists)
  have hrecalled : s'.recalledSource? = s.recalledSource? := by
    rw [recalledSource?, recalledSource?, ha.store _ List.not_mem_nil]
  refine ⟨?_, ?_⟩
  · rw [hrecalled, chooseSource_congr ha.lists, h.source, ha.source List.not_mem_nil]
  · rw [passedOver, hrecalled, hresolves]
    exact h.passed

/-- A change of other lists: none that was passed over can be loaded now, and the selected source
can be if it could before. -/
theorem Chosen.frame (h : s.Chosen settings passed) (hsource : s'.source = s.source)
    (hrecalled : s'.recalledSource? = s.recalledSource?)
    (hgone : ∀ source ∈ passedOver settings s, s'.catalogue.resolves source = false)
    (hkept : s.catalogue.resolves s.source = true → s'.catalogue.resolves s.source = true) :
    s'.Chosen settings passed := by
  have hfound : ∀ source, (s.recalledSource?.toList ++ [settings.selection.source]).find?
      s.catalogue.resolves = some source → s'.catalogue.resolves source = true := by
    intro source hfind
    have hchosen := h.source
    rw [chooseSource, hfind, Option.getD_some] at hchosen
    rw [hchosen]
    exact hkept (hchosen ▸ List.find?_some hfind)
  obtain ⟨hfind, htake⟩ := find?_takeWhile_congr hgone hfound
  refine ⟨?_, ?_⟩
  · rw [hsource, ← h.source, hrecalled, chooseSource, chooseSource, hfind]
  · rw [passedOver, hrecalled, htake]
    exact h.passed

theorem resolves_of_passedOver {source : Source} (h : source ∈ passedOver settings s) :
    s.catalogue.resolves source = false := by
  simpa using List.mem_takeWhile_imp h

theorem recalledSource?_saveLists (s : Service) :
    s.saveLists.1.recalledSource? = s.recalledSource? := by
  have hvalue := s.store.values_change_other (c := .put Store.listsKey
    (Json.compact (.list (s.catalogue.lists.map UserList.toDatum)))) (k := Store.sourceKey)
    (show Store.listsKey ≠ Store.sourceKey by decide)
  exact congrArg (Option.bind · fun text => (Source.parse text).toOption) hvalue

theorem Chosen.editList {α : Type} {l : UserList} (h : s.Chosen settings passed)
    (hl : .custom l.id ∉ passedOver settings s) (answer : α) (chance : Random.Stream) :
    (s.editList l answer chance).1.Chosen settings passed := by
  obtain ⟨pool, _, _, hafter⟩ := s.afterEdit_eq l chance
  rw [Service.editList, hafter]
  refine h.frame rfl (recalledSource?_saveLists _) (fun source hin => ?_) fun hresolves =>
    Catalogue.resolves_upsert hresolves l
  have hother : source ≠ .custom l.id := by
    rintro rfl
    exact hl hin
  exact (Catalogue.resolves_upsert_other hother).trans (resolves_of_passedOver hin)

/-- A list that is there is not passed over. -/
theorem Chosen.editList_found {α : Type} {id : String} {l m : UserList}
    (h : s.Chosen settings passed) (hfound : s.catalogue.find? id = some l) (hid : m.id = l.id)
    (answer : α) (chance : Random.Stream) :
    (s.editList m answer chance).1.Chosen settings passed := by
  refine h.editList (fun hin => ?_) answer chance
  have hgone := resolves_of_passedOver hin
  rw [hid, Catalogue.find?_id hfound, Catalogue.resolves, hfound] at hgone
  cases hgone

/-- If the built-in list is the stored choice, nothing is passed over. -/
theorem chosen_saveSource_builtin (hs : s.store.Takes) (hsource : s.source = .builtin) :
    (s.saveSource .builtin).1.Chosen settings passed := by
  have hvalue : (s.saveSource .builtin).1.store.values.get? Store.sourceKey =
      some Source.builtin.text := hs.value (.put Store.sourceKey Source.builtin.text)
  have hrecalled : (s.saveSource .builtin).1.recalledSource? = some .builtin := by
    rw [recalledSource?, hvalue]
    rfl
  refine ⟨?_, ?_⟩
  · rw [hrecalled]
    exact (chooseSource_eq rfl rfl).trans hsource.symm
  · rw [passedOver, hrecalled]
    exact List.nil_subset _

theorem Chosen.removeList (h : s.Chosen settings passed) (hs : s.store.Reliable) (id : String)
    (chance : Random.Stream) : (s.removeList id chance).1.Chosen settings passed := by
  cases hfound : s.catalogue.find? id with
  | none =>
    simp only [Service.removeList, hfound]
    exact h
  | some removed =>
    rcases removeList_found hs hfound chance with
      ⟨hsource, hremove⟩ | ⟨_, pool, hremove⟩ <;> rw [hremove]
    · refine h.frame rfl (recalledSource?_saveLists _) (fun source hin => ?_) fun hresolves =>
        Catalogue.resolves_remove hresolves hsource
      have hgone := resolves_of_passedOver hin
      have hother : source ≠ .custom id := by
        rintro rfl
        rw [Catalogue.resolves, hfound] at hgone
        cases hgone
      exact (Catalogue.resolves_remove_other hother).trans hgone
    · exact chosen_saveSource_builtin (hs.takes.change (.put Store.listsKey _)) rfl

theorem Chosen.notify (h : s.Chosen settings passed) (a : Address) (worked : Bool) :
    (s.notify a worked).1.Chosen settings passed := by
  have hcatalogue : (s.notify a worked).1.catalogue = s.catalogue := by cases worked <;> rfl
  have hsource : (s.notify a worked).1.source = s.source := by cases worked <;> rfl
  have hrecalled : (s.notify a worked).1.recalledSource? = s.recalledSource? := by
    obtain ⟨changes, hstore, hall⟩ := notify_changes s.standing a worked
    rw [recalledSource?, recalledSource?, hstore s rfl, Store.values_changeAll]
    intro c hc hkey
    have hin := (hall c hc).key_mem
    rw [hkey] at hin
    exact absurd hin (by decide)
  refine h.frame hsource hrecalled (fun source hin => ?_) fun hresolves => ?_
  · rw [hcatalogue]
    exact resolves_of_passedOver hin
  · rw [hcatalogue]
    exact hresolves

/-- The list that is created, or put in the place of another. -/
def Operation.upserted? : Operation → Option UserList
  | .upsertList l _ => some l
  | _ => none

theorem Chosen.serve (h : s.Chosen settings passed) (hs : s.store.Reliable) (ho : o.Akin o')
    (hnew : ∀ l, o.upserted? = some l → .custom l.id ∉ passed) :
    (s.serve probe o).Chosen settings passed := by
  cases ho with
  | upsertList l chance _ =>
    simp only [Service.serve, upsertList]
    split
    · exact h
    · exact h.editList (fun hin => hnew l rfl (h.passed hin)) _ chance
  | removeList id chance _ => exact h.removeList hs id chance
  | addEntry id entry chance _ =>
    simp only [Service.serve, addEntry]
    split
    · exact h
    · rename_i l hl
      split
      · exact h
      · exact h
      · rename_i m hadd
        exact h.editList_found hl (UserList.id_of_add hadd) true chance
  | removeEntry id a chance _ =>
    simp only [Service.serve, removeEntry]
    split
    · exact h
    · rename_i l hl
      split
      · exact h.editList_found (m := l.remove a) hl rfl true chance
      · exact h
  | notify worked _ => exact h.notify _ worked

/-! ## One after another -/

variable {operations operations' : List Operation} {probe' : Probe}

theorem Lasting.serveAll (h : s.Lasting settings path)
    (ho : List.Forall₂ Operation.Akin operations operations') :
    (s.serveAll probe operations).Lasting settings path := by
  induction ho generalizing s with
  | nil => exact h
  | cons hakin _ ih => exact ih (h.serve hakin)

theorem Agrees.serveAll {keys : List String} (ha : s.Agrees keys s') (h : s.Lasting settings path)
    (h' : s'.Lasting settings path) (ho : List.Forall₂ Operation.Akin operations operations') :
    (s.serveAll probe operations).Agrees keys (s'.serveAll probe' operations') := by
  induction ho generalizing s s' with
  | nil => exact ha
  | cons hakin _ ih =>
    exact ih (ha.serve h.unhindered.reliable h'.unhindered.reliable hakin) (h.serve hakin)
      (h'.serve hakin.symm)

theorem Chosen.serveAll (hc : s.Chosen settings passed) (h : s.Lasting settings path)
    (ho : List.Forall₂ Operation.Akin operations operations')
    (hnew : ∀ o ∈ operations, ∀ l, o.upserted? = some l → .custom l.id ∉ passed) :
    (s.serveAll probe operations).Chosen settings passed := by
  induction ho generalizing s with
  | nil => exact hc
  | @cons o _ _ _ hakin _ ih =>
    have hnext : (s.serve probe o).Chosen settings passed :=
      hc.serve h.unhindered.reliable hakin (hnew o (List.mem_cons_self ..))
    exact ih hnext (h.serve hakin) fun o hin => hnew o (List.mem_cons_of_mem _ hin)

end

end Service
end ResolverRace
