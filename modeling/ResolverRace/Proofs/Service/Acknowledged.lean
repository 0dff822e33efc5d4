import ResolverRace.Proofs.Service.Arranged
import ResolverRace.Proofs.Service.LivePool

/-!
# Which edits of lists last

An edit of a list takes place in memory first, and then all lists are stored. If the store refuses
them the edit is answered with an error, but stays in memory; asked for again, there is nothing to
edit, and nothing is stored. So an edit that was made is found by a new service, and an edit for
which there was nothing to do is found if it was found before.

* `Service.Sustained` — the services over a store whose writes may fail, and their answers to edits.
* `Service.Legible` — such a service can always be made anew.
* `Service.Matches` — the store stands for the lists; edits that are made bring this about, and
  whatever does not fail keeps it.
* `acknowledged_edits` — which lists a new service has.
* `acknowledged_edit_unsaved` — an edit is asked for again, and is not stored.
-/

namespace ResolverRace
namespace Service

/-- The answer to an edit of a list: whether there was anything to edit. -/
def edited? (s : Service) : Operation → Option (Except Error Bool)
  | .upsertList l chance => some ((s.upsertList l chance).2.map fun _ => true)
  | .removeList id chance => some ((s.removeList id chance).2.map fun _ => true)
  | .addEntry id entry chance => some (s.addEntry id entry chance).2
  | .removeEntry id a chance => some (s.removeEntry id a chance).2
  | _ => none

/-- A service that was made from a store that can be read, and its answers to the edits since. Its
store may refuse any writes, other ones from time to time, but nobody else changes its values. -/
inductive Sustained (settings : Settings) : List (Except Error Bool) → Service → Prop where
  | create {store : Store} {chance : Random.Stream} {s : Service} : store.Readable →
      create settings store chance = .ok s → Sustained settings [] s
  | serve {answers : List (Except Error Bool)} {s : Service} (probe : Probe) (o : Operation) :
      Sustained settings answers s →
      Sustained settings (answers ++ (s.edited? o).toList) (s.serve probe o)
  | meanwhile {answers : List (Except Error Bool)} {s : Service} (store : Store) :
      Sustained settings answers s → store.Readable → store.backing = s.store.backing →
      Sustained settings answers { s with store := store }

/-- A new service made from the settings and what can be read in the store has the lists that this
one has. -/
def Kept (settings : Settings) (s : Service) : Prop :=
  ∀ (store : Store) (chance : Random.Stream), (∀ key, store.get key = s.store.get key) →
    ∃ s', create settings store chance = .ok s' ∧ s'.catalogue.lists = s.catalogue.lists

/-- The store stands for the lists. -/
def Matches (settings : Settings) (s : Service) : Prop :=
  (storedLists s.store).map (·.getD settings.lists) = .ok s.catalogue.lists

/-! ## Whatever is written can be read -/

/-- The changes that a service makes of its store. -/
def OfService (c : Store.Change) : Prop := OfArranging c ∨ Standing.OfOutcome c

/-- All of the store can be read, whatever stands in it. -/
structure Legible (s : Store) : Prop where
  readable : s.Readable
  lists : ∀ value, s.values.get? Store.listsKey = some value →
    ((Json.parse? value).bind (UserList.allOfDatum? true)).isSome = true
  demoted : ∀ value, s.values.get? Store.demotedKey = some value →
    (Standing.decode? value).isSome = true

theorem parse?_lists (lists : List UserList) :
    (Json.parse? (Json.compact (.list (lists.map UserList.toDatum)))).bind
      (UserList.allOfDatum? true) = some lists := by
  rw [Json.parse?_compact (plain_lists lists)]
  exact UserList.allOfDatum?_map true lists

theorem storedLists_of_get {s t : Store} (h : t.get Store.listsKey = s.get Store.listsKey) :
    storedLists t = storedLists s := by
  simp only [storedLists, h]

section

variable {settings : Settings} {answers : List (Except Error Bool)} {s s' : Service}
  {store store' : Store} {probe : Probe} {o : Operation}

theorem Legible.load (h : Legible store) : ∃ standing, Standing.load store = .ok standing := by
  rw [Standing.load_readable h.readable]
  cases hvalue : store.values.get? Store.demotedKey with
  | none => exact ⟨_, rfl⟩
  | some value =>
    obtain ⟨texts, htexts⟩ := Option.isSome_iff_exists.1 (h.demoted value hvalue)
    simp only [Standing.demotedOf?, htexts, Option.map_some]
    exact ⟨_, rfl⟩

theorem legible_of_read {stored : Option (List UserList)} {standing : Standing}
    (hs : store.Readable) (hlists : storedLists store = .ok stored)
    (hload : Standing.load store = .ok standing) : Legible store := by
  refine ⟨hs, fun value hvalue => ?_, fun value hvalue => ?_⟩
  · simp only [storedLists, hs.get, hvalue] at hlists
    split at hlists
    · rename_i lists hread
      rw [hread]
      rfl
    · cases hlists
  · rw [Standing.load_readable hs, hvalue] at hload
    cases hdecode : Standing.decode? value with
    | none => simp [Standing.demotedOf?, hdecode] at hload
    | some texts => rfl

theorem Legible.changeAll (h : Legible store) {changes : List Store.Change}
    (hall : ∀ c ∈ changes, OfService c) : Legible (store.changeAll changes) := by
  refine ⟨h.readable.changeAll changes, ?_, ?_⟩
  · refine Store.forall_values_changeAll h.lists fun c hc hkey value hvalue => ?_
    rcases hall c hc with hc | hc
    · cases hc with
      | putLists lists =>
        obtain rfl := Option.some.inj hvalue
        rw [parse?_lists]
        rfl
      | putSource => exact absurd (show Store.sourceKey = Store.listsKey from hkey) (by decide)
    · have hin := hc.key_mem
      rw [hkey] at hin
      exact absurd hin (by decide)
  · refine Store.forall_values_changeAll h.demoted fun c hc hkey value hvalue => ?_
    rcases hall c hc with hc | hc
    · have hin := hc.key_mem
      rw [hkey] at hin
      exact absurd hin (by decide)
    · cases hc with
      | putDemoted as =>
        obtain rfl := Option.some.inj hvalue
        rw [Standing.decode?_encode]
        rfl
      | removeDemoted => cases hvalue
      | putLast => exact absurd (show Store.lastKey = Store.demotedKey from hkey) (by decide)
      | removeLast => exact absurd (show Store.lastKey = Store.demotedKey from hkey) (by decide)

theorem recordWinner_changes (t : Tracked) (report : Option Report) :
    ∃ changes, (t.recordWinner report).store = t.store.changeAll changes ∧
      ∀ c ∈ changes, Standing.OfOutcome c := by
  rw [Tracked.recordWinner]
  split
  · rename_i winner _
    obtain ⟨changes, hstore, hall⟩ := t.standing.recordSuccess_changes winner.address
    exact ⟨changes, hstore t.store, hall⟩
  · exact ⟨[], rfl, fun _ hc => by cases hc⟩

/-- A report makes the same changes of the store wherever the same is remembered. -/
theorem notify_changes (t : Standing) (a : Address) (worked : Bool) :
    ∃ changes, (∀ s : Service, s.standing = t →
        (s.notify a worked).1.store = s.store.changeAll changes) ∧
      ∀ c ∈ changes, Standing.OfOutcome c := by
  cases worked with
  | true =>
    obtain ⟨changes, hstore, hall⟩ := t.recordSuccess_changes a
    refine ⟨changes, fun s hstanding => ?_, hall⟩
    rw [← hstore, ← hstanding]
    rfl
  | false =>
    obtain ⟨changes, hstore, hall⟩ := t.recordFailure_changes a
    refine ⟨changes, fun s hstanding => ?_, hall⟩
    rw [← hstore, ← hstanding]
    rfl

/-- Reports and races store outcomes and leave the lists alone. -/
theorem outcome_changes (probe : Probe) (s : Service) (h : o.arranges = false) :
    (s.serve probe o).catalogue = s.catalogue ∧
      ∃ changes, (s.serve probe o).store = s.store.changeAll changes ∧
        ∀ c ∈ changes, Standing.OfOutcome c := by
  have hnone : ∃ changes, s.store = s.store.changeAll changes ∧
      ∀ c ∈ changes, Standing.OfOutcome c := ⟨[], rfl, fun _ hc => by cases hc⟩
  cases o with
  | reload | selectSource | upsertList | removeList | addEntry | removeEntry | preview => cases h
  | notify a worked =>
    obtain ⟨changes, hstore, hall⟩ := notify_changes s.standing a worked
    exact ⟨by cases worked <;> rfl, changes, hstore s rfl, hall⟩
  | start params =>
    simp only [serve, start]
    split <;> exact ⟨rfl, hnone⟩
  | cancel => exact ⟨rfl, hnone⟩
  | acknowledge => exact ⟨rfl, hnone⟩
  | advance span => exact ⟨rfl, recordWinner_changes _ _⟩
  | wait => exact ⟨rfl, recordWinner_changes _ _⟩

theorem serve_changes (probe : Probe) (s : Service) (o : Operation) :
    ∃ changes, (s.serve probe o).store = s.store.changeAll changes ∧ ∀ c ∈ changes, OfService c := by
  cases harranges : o.arranges with
  | true =>
    obtain ⟨changes, hstore, hall⟩ := (arranges_serve probe s harranges).store
    exact ⟨changes, hstore, fun c hc => .inl (hall c hc)⟩
  | false =>
    obtain ⟨_, changes, hstore, hall⟩ := outcome_changes probe s harranges
    exact ⟨changes, hstore, fun c hc => .inr (hall c hc)⟩

theorem Legible.serve (h : Legible s.store) (probe : Probe) (o : Operation) :
    Legible (s.serve probe o).store := by
  obtain ⟨changes, hstore, hall⟩ := serve_changes probe s o
  rw [hstore]
  exact h.changeAll hall

theorem Legible.meanwhile (h : Legible store) (hs : store'.Readable)
    (hbacking : store'.backing = store.backing) : Legible store' := by
  have hvalues : store'.values = store.values := by rw [Store.values, Store.values, hbacking]
  exact ⟨hs, by rw [hvalues]; exact h.lists, by rw [hvalues]; exact h.demoted⟩

/-! ## New services -/

/-- From what can be read a service can be made, with the lists that the store stands for. -/
theorem Legible.create {lists : List UserList} (h : Legible store)
    (hvalid : settings.validate = .ok ())
    (hlists : (Service.storedLists store).map (·.getD settings.lists) = .ok lists)
    (hsame : ∀ key, store'.get key = store.get key) (chance : Random.Stream) :
    ∃ s', create settings store' chance = .ok s' ∧ s'.catalogue.lists = lists := by
  let c : Catalogue := { settings.catalogue store'.disk with lists := lists }
  have hc : withStoredLists (settings.catalogue store'.disk) store' = .ok c := by
    refine withStoredLists_ok ?_
    rw [storedLists_of_get (hsame _), lists_catalogue]
    exact hlists
  obtain ⟨standing, hload⟩ := h.load
  rw [← Standing.load_congr hsame] at hload
  obtain ⟨stored, hstored⟩ : ∃ stored, storedSource store' = .ok stored := by
    rw [storedSource, hsame, h.readable.get]
    exact ⟨_, rfl⟩
  obtain ⟨pool, _, hcreate⟩ := create_of_read hvalid hc hload hstored chance
  exact ⟨_, hcreate, rfl⟩

theorem Matches.kept (hm : s.Matches settings) (h : Legible s.store)
    (hvalid : settings.validate = .ok ()) : s.Kept settings :=
  fun _ chance hsame => h.create hvalid hm hsame chance

/-! ## What keeps the lists stored -/

theorem Matches.frame {changes : List Store.Change} (hm : s.Matches settings)
    (hs : s.store.Readable) (hlists : s'.catalogue.lists = s.catalogue.lists)
    (hstore : s'.store = s.store.changeAll changes) (hall : ∀ c ∈ changes, c.key ≠ Store.listsKey) :
    s'.Matches settings := by
  have hget : s'.store.get Store.listsKey = s.store.get Store.listsKey := by
    rw [hstore, (hs.changeAll changes).get, hs.get, Store.values_changeAll s.store hall]
  rw [Matches, storedLists_of_get hget, hlists]
  exact hm

theorem Matches.saveSource (hm : s.Matches settings) (hs : s.store.Readable) (source : Source) :
    (s.saveSource source).1.Matches settings := by
  refine hm.frame hs rfl (show _ = s.store.changeAll [.put Store.sourceKey source.text] from rfl) ?_
  exact List.forall_mem_singleton.2 (show Store.sourceKey ≠ Store.listsKey by decide)

/-- Lists that are read again are those that are there. -/
theorem Matches.withStoredLists (hm : s.Matches settings) :
    withStoredLists s.catalogue s.store = .ok s.catalogue := by
  obtain ⟨stored, hstored, hlists⟩ := map_eq_ok hm
  rw [Service.withStoredLists, hstored]
  cases stored with
  | none => rfl
  | some lists =>
    obtain rfl : lists = s.catalogue.lists := hlists
    rfl

theorem Matches.reload (hm : s.Matches settings) (chance : Random.Stream) :
    (s.reload chance).1.Matches settings := by
  rw [Service.reload, hm.withStoredLists]
  dsimp only
  split
  · rename_i t ht
    obtain ⟨pool, _, rfl⟩ := map_eq_ok ht
    exact hm
  · exact hm

theorem Matches.selectSource (hm : s.Matches settings) (hs : s.store.Readable) (source : Source)
    (chance : Random.Stream) : (s.selectSource source chance).1.Matches settings := by
  have hsave : (s.saveSource source).1.Matches settings := hm.saveSource hs source
  rw [Service.selectSource]
  split
  · exact hm
  · split
    · rename_i t e ht
      rw [ht] at hsave
      exact hsave
    · rename_i t ht
      rw [ht] at hsave
      exact hsave

/-- What is no edit keeps the lists stored. -/
theorem Matches.serve (hm : s.Matches settings) (hs : s.store.Readable)
    (ho : s.edited? o = none) : (s.serve probe o).Matches settings := by
  cases harranges : o.arranges with
  | false =>
    obtain ⟨hcatalogue, changes, hstore, hall⟩ := outcome_changes probe s harranges
    refine hm.frame hs (congrArg Catalogue.lists hcatalogue) hstore fun c hc hkey => ?_
    have hin := (hall c hc).key_mem
    rw [hkey] at hin
    exact absurd hin (by decide)
  | true =>
    cases o with
    | reload chance => exact hm.reload chance
    | selectSource source chance => exact hm.selectSource hs source chance
    | preview => exact hm
    | upsertList | removeList | addEntry | removeEntry => cases ho
    | notify | start | cancel | acknowledge | advance | wait => cases harranges

/-! ## Edits -/

/-- The lists were put as they are. -/
theorem matches_of_put (hs : s.store.Readable)
    (hvalue : s.saveLists.1.store.values.get? Store.listsKey =
      some (Json.compact (.list (s.catalogue.lists.map UserList.toDatum)))) :
    s.saveLists.1.Matches settings := by
  have hreadable : s.saveLists.1.store.Readable := hs.change (.put Store.listsKey _)
  have hstored : storedLists s.saveLists.1.store = .ok (some s.catalogue.lists) := by
    simp only [storedLists, hreadable.get, hvalue, parse?_lists]
  rw [Matches, hstored]
  rfl

theorem matches_saveLists (hs : s.store.Readable) (h : s.saveLists.2 = .ok ()) :
    s.saveLists.1.Matches settings :=
  matches_of_put hs (Store.values_change_ok (c := .put Store.listsKey _) h)

/-- The list that is selected is deleted. -/
def Operation.Deposes (s : Service) (o : Operation) : Prop :=
  ∃ id chance, o = .removeList id chance ∧ s.source = .custom id

/-- How an edit goes, with its answer and the service after it. -/
inductive Edit (s : Service) (o : Operation) : Except Error Bool → Service → Prop where
  /-- There is nothing to edit, or the edit is refused. -/
  | nothing {answer : Except Error Bool} : answer ≠ .ok true → Edit s o answer s
  /-- The lists are edited and stored. -/
  | saved {t : Service} : t.store = s.store → t.source = s.source →
      Edit s o (t.saveLists.2.map fun () => true) t.saveLists.1
  /-- The selected list is deleted, and the lists without it cannot be stored. -/
  | unsaved {t : Service} {e : Error} : o.Deposes s → t.store = s.store →
      t.saveLists.2 = .error e → Edit s o (.error e) t.saveLists.1
  /-- The selected list is deleted, the lists are stored, and then the new choice. -/
  | deposed {t : Service} : o.Deposes s → t.store = s.store → t.saveLists.2 = .ok () →
      Edit s o ((t.saveLists.1.saveSource .builtin).2.map fun () => true)
        (t.saveLists.1.saveSource .builtin).1

theorem map_map_true {α : Type} (x : Except Error Unit) (answer : α) :
    (x.map fun () => answer).map (fun _ => true) = x.map fun () => true := by
  cases x <;> rfl

theorem edit_editList {α : Type} (s : Service) (l : UserList) (answer : α)
    (chance : Random.Stream) :
    s.Edit o ((s.editList l answer chance).2.map fun _ => true) (s.editList l answer chance).1 := by
  obtain ⟨pool, _, _, hafter⟩ := s.afterEdit_eq l chance
  simp only [editList, hafter, map_map_true]
  exact .saved (t := { s with catalogue := s.catalogue.upsert l, pool := pool }) rfl rfl

theorem edit_editList_true (s : Service) (l : UserList) (chance : Random.Stream) :
    s.Edit o (s.editList l true chance).2 (s.editList l true chance).1 := by
  have hedit := edit_editList (o := o) s l true chance
  rw [editList, map_map_true] at hedit
  exact hedit

theorem edit_removeList (s : Service) (id : String) (chance : Random.Stream) :
    s.Edit (.removeList id chance) ((s.removeList id chance).2.map fun _ => true)
      (s.removeList id chance).1 := by
  cases hfound : s.catalogue.find? id with
  | none =>
    simp only [removeList, hfound]
    exact .nothing (by simp [Except.map])
  | some removed =>
    have hdeletion := deletion_removeList hfound chance
    generalize s.removeList id chance = r at hdeletion ⊢
    cases hdeletion with
    | @other t _ ht =>
      rw [map_map_true]
      exact .saved (t := t) (by rw [ht]) (by rw [ht])
    | @unsaved t _ _ e hsource _ ht hsave =>
      exact .unsaved ⟨id, chance, rfl, hsource⟩ (by rw [ht]) hsave
    | @deposed t _ _ hsource _ ht hsave =>
      rw [map_map_true]
      exact .deposed ⟨id, chance, rfl, hsource⟩ (by rw [ht]) hsave

/-- Every edit goes this way. -/
theorem edit_serve {answer : Except Error Bool} (ho : s.edited? o = some answer) :
    s.Edit o answer (s.serve probe o) := by
  cases o with
  | upsertList l chance =>
    obtain rfl := Option.some.inj ho
    simp only [serve, upsertList]
    split
    · exact .nothing (by simp [Except.map])
    · exact edit_editList s l _ chance
  | removeList id chance =>
    obtain rfl := Option.some.inj ho
    exact s.edit_removeList id chance
  | addEntry id entry chance =>
    obtain rfl := Option.some.inj ho
    simp only [serve, addEntry]
    split
    · exact .nothing (by simp)
    · split
      · exact .nothing (by simp)
      · exact .nothing (by simp)
      · exact edit_editList_true s _ chance
  | removeEntry id a chance =>
    obtain rfl := Option.some.inj ho
    simp only [serve, removeEntry]
    split
    · exact .nothing (by simp)
    · split
      · exact edit_editList_true s _ chance
      · exact .nothing (by simp)
  | reload | selectSource | preview | notify | start | cancel | acknowledge | advance | wait =>
    cases ho

/-- An edit that was made without an error has been stored. -/
theorem matches_of_edited (hs : s.store.Readable) (ho : s.edited? o = some (.ok true)) :
    (s.serve probe o).Matches settings := by
  have hedit : s.Edit o (.ok true) (s.serve probe o) := edit_serve ho
  generalize hanswer : (.ok true : Except Error Bool) = answer, s.serve probe o = s' at hedit ⊢
  cases hedit with
  | nothing hno => exact absurd hanswer.symm hno
  | saved hstore _ =>
    obtain ⟨_, hsaved, _⟩ := map_eq_ok hanswer.symm
    exact matches_saveLists (hstore ▸ hs) hsaved
  | unsaved => cases hanswer
  | @deposed t _ hstore hsaved =>
    have hreadable : t.saveLists.1.store.Readable :=
      (hstore ▸ hs : t.store.Readable).change (.put Store.listsKey _)
    exact (matches_saveLists (hstore ▸ hs) hsaved).saveSource hreadable .builtin

/-- With nothing to edit, nothing is done. -/
theorem serve_of_edited (ho : s.edited? o = some (.ok false)) : s.serve probe o = s := by
  have hno {α : Type} {x : Except Error α} (h : some (x.map fun _ => true) = some (.ok false)) :
      False := by
    obtain ⟨_, _, htrue⟩ := map_eq_ok (Option.some.inj h)
    cases htrue
  have hedit {l : UserList} {chance : Random.Stream}
      (h : (s.editList l true chance).2 = .ok false) : False := by
    obtain ⟨_, _, htrue⟩ := map_eq_ok h
    cases htrue
  cases o with
  | upsertList l chance => exact (hno ho).elim
  | removeList id chance => exact (hno ho).elim
  | addEntry id entry chance =>
    have hok : (s.addEntry id entry chance).2 = .ok false := Option.some.inj ho
    simp only [serve]
    rw [addEntry] at hok ⊢
    split at hok
    · cases hok
    · split at hok
      · cases hok
      · rfl
      · exact (hedit hok).elim
  | removeEntry id a chance =>
    have hok : (s.removeEntry id a chance).2 = .ok false := Option.some.inj ho
    simp only [serve]
    rw [removeEntry] at hok ⊢
    split at hok
    · cases hok
    · split at hok
      · exact (hedit hok).elim
      · rename_i hout
        rw [if_neg hout]
  | reload | selectSource | preview | notify | start | cancel | acknowledge | advance | wait =>
    cases ho

/-! ## Runs -/

theorem Sustained.legible (h : Sustained settings answers s) :
    settings.validate = .ok () ∧ Legible s.store := by
  induction h with
  | create hreadable hs =>
    obtain ⟨hvalid, _, hstore, hload, hlists, _⟩ := create_cases hs
    obtain ⟨stored, hstored, _⟩ := map_eq_ok hlists
    rw [hstore]
    exact ⟨hvalid, legible_of_read hreadable hstored hload⟩
  | serve probe o _ ih => exact ⟨ih.1, ih.2.serve probe o⟩
  | meanwhile store _ hreadable hbacking ih => exact ⟨ih.1, ih.2.meanwhile hreadable hbacking⟩

theorem Sustained.matches (h : Sustained settings answers s)
    (hgood : GoodSince (∃ b, · = .ok b) (· = .ok true) answers) : s.Matches settings := by
  induction h with
  | create _ hs =>
    obtain ⟨_, _, hstore, _, hlists, _⟩ := create_cases hs
    rw [Matches, hstore]
    exact hlists
  | @serve answers s probe o hbefore ih =>
    have hs : s.store.Readable := hbefore.legible.2.readable
    cases ho : s.edited? o with
    | none =>
      rw [ho, Option.toList_none, List.append_nil] at hgood
      exact (ih hgood).serve hs ho
    | some answer =>
      rw [ho] at hgood
      obtain ⟨⟨b, rfl⟩, hfrom⟩ := goodSince_concat hgood
      -- An edit that was made needs no history; one with nothing to edit is carried by what was.
      cases b with
      | true => exact matches_of_edited hs ho
      | false =>
        rw [serve_of_edited ho]
        exact ih (hfrom.resolve_left (by simp))
  | meanwhile store hbefore hreadable hbacking ih =>
    have hget := hbefore.legible.2.readable.get_of_backing hreadable hbacking
    rw [Matches, storedLists_of_get (hget _)]
    exact ih hgood

end

/-- A new service finds the lists as they are after every edit that was made without an error, and
from then on, also after other operations and edits with nothing to edit, until an edit fails. With
nothing to edit nothing is done, so a new service then finds the lists if it did so before. -/
theorem acknowledged_edits {settings : Settings} {answers : List (Except Error Bool)} {s : Service}
    (h : Sustained settings answers s) :
    (∀ probe o, s.edited? o = some (.ok true) → (s.serve probe o).Kept settings) ∧
    (∀ probe o, s.edited? o = some (.ok false) → s.serve probe o = s) ∧
    (GoodSince (∃ b, · = .ok b) (· = .ok true) answers → s.Kept settings) := by
  obtain ⟨hvalid, hlegible⟩ := h.legible
  refine ⟨fun probe o ho => ?_, fun probe o ho => serve_of_edited ho, fun hgood => ?_⟩
  · have hmatches : (s.serve probe o).Matches settings :=
      matches_of_edited hlegible.readable ho
    exact hmatches.kept (hlegible.serve probe o) hvalid
  · exact (h.matches hgood).kept hlegible hvalid

/-- The store refuses an entry that is added. Another list is stored without an error, and the entry
with it. -/
theorem acknowledged_edits_after_refusal :
    let settings : Settings := { Settings.default with
      selection := { Selection.default with source := .custom "home" }
      lists := [⟨"home", "Home", ["one"]⟩] }
    let store : Store := .inMemory .empty .empty
    let refusing : Store := { store with refusals := [⟨.put, some Store.listsKey⟩] }
    let chance : Random.Stream := ⟨fun _ => 0, 0⟩
    let probe : Probe := fun _ _ _ => ⟨none, .failure ""⟩
    ∃ s, create settings refusing chance = .ok s ∧
      let refused := s.serve probe (.addEntry "home" "two" chance)
      let again : Service := { refused with store := { refused.store with refusals := [] } }
      let work : UserList := ⟨"work", "Work", ["three"]⟩
      s.edited? (.addEntry "home" "two" chance) =
        some (.error (.store (.refused .put Store.listsKey))) ∧
      again.edited? (.upsertList work chance) = some (.ok true) ∧
      (again.serve probe (.upsertList work chance)).catalogue.lists =
        [⟨"home", "Home", ["one", "two"]⟩, work] ∧
      (again.serve probe (.upsertList work chance)).Kept settings := by
  intro settings store refusing chance probe
  obtain ⟨s, hs⟩ : ∃ s, create settings refusing chance = .ok s := ⟨_, rfl⟩
  refine ⟨s, hs, ?_⟩
  intro refused again work
  have hcreated : Sustained settings [] s := .create (fun _ => rfl) hs
  have hagain : Sustained settings ([] ++ (s.edited? (.addEntry "home" "two" chance)).toList) again :=
    .meanwhile _ (.serve probe _ hcreated) (by cases hs; exact fun _ => rfl) rfl
  have hrun : (create settings refusing chance).toOption.map (fun s =>
      let refused := s.serve probe (.addEntry "home" "two" chance)
      let again : Service := { refused with store := { refused.store with refusals := [] } }
      (s.edited? (.addEntry "home" "two" chance), again.edited? (.upsertList work chance),
        (again.serve probe (.upsertList work chance)).catalogue.lists)) =
      some (some (.error (.store (.refused .put Store.listsKey))), some (.ok true),
        [⟨"home", "Home", ["one", "two"]⟩, work]) := by
    simp only [settings, refusing, store, chance, probe, work]
    decide +kernel
  rw [hs] at hrun
  have hanswers := Option.some.inj hrun
  have hedited : again.edited? (.upsertList work chance) = some (.ok true) :=
    congrArg (·.2.1) hanswers
  refine ⟨congrArg (·.1) hanswers, hedited, congrArg (·.2.2) hanswers, ?_⟩
  exact (acknowledged_edits hagain).1 probe _ hedited

/-- The store refuses an entry that is added. It is added once more, when the store refuses nothing:
there is nothing to edit, which is no error, and a new service does not have the entry. -/
theorem acknowledged_edit_unsaved :
    let settings : Settings := { Settings.default with
      selection := { Selection.default with source := .custom "home" }
      lists := [⟨"home", "Home", ["1.1.1.1"]⟩] }
    let store : Store := .inMemory .empty .empty
    let refusing : Store := { store with refusals := [⟨.put, some Store.listsKey⟩] }
    let chance : Random.Stream := ⟨fun _ => 0, 0⟩
    ∃ s s', create settings refusing chance = .ok s ∧
      let refused := s.addEntry "home" "8.8.8.8" chance
      let again : Service := { refused.1 with store := { refused.1.store with refusals := [] } }
      refused.2 = .error (.store (.refused .put Store.listsKey)) ∧
      (again.addEntry "home" "8.8.8.8" chance).2 = .ok false ∧
      (again.addEntry "home" "8.8.8.8" chance).1.catalogue.lists =
        [⟨"home", "Home", ["1.1.1.1", "8.8.8.8"]⟩] ∧
      create settings (again.addEntry "home" "8.8.8.8" chance).1.store chance = .ok s' ∧
      s'.catalogue.lists = [⟨"home", "Home", ["1.1.1.1"]⟩] := by
  intro settings store refusing chance
  obtain ⟨s, hs⟩ : ∃ s, create settings refusing chance = .ok s := ⟨_, rfl⟩
  obtain ⟨s', hs'⟩ : ∃ s', create settings store chance = .ok s' := ⟨_, rfl⟩
  have hrun : (create settings refusing chance).toOption.map (fun s =>
      let refused := s.addEntry "home" "8.8.8.8" chance
      let again : Service := { refused.1 with store := { refused.1.store with refusals := [] } }
      let added := again.addEntry "home" "8.8.8.8" chance
      (refused.2, added.2, added.1.catalogue.lists, added.1.store)) =
      some (.error (.store (.refused .put Store.listsKey)), .ok false,
        [⟨"home", "Home", ["1.1.1.1", "8.8.8.8"]⟩], store) := by
    simp only [settings, refusing, store, chance]
    decide +kernel
  rw [hs] at hrun
  have hanswers := Option.some.inj hrun
  refine ⟨s, s', hs, congrArg (·.1) hanswers, congrArg (·.2.1) hanswers,
    congrArg (·.2.2.1) hanswers, ?_, ?_⟩
  · rw [← hs']
    exact congrArg (create settings · chance) (congrArg (·.2.2.2) hanswers)
  · cases hs'
    rfl

end Service
end ResolverRace
