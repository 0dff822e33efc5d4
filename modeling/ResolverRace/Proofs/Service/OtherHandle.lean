import ResolverRace.Proofs.Service.Mirrored

/-!
# What a reload reads

A file store reads its file when it is opened, and never again. So a reload finds the lists that the
service has put into its own store, which are those that it has: whatever another store of the same
file has written, the lists stay, and the pool is made anew from them. Only with its store opened
anew does a service find what the file holds.

* `Service.ReloadsWith` — what a reload does that finds these lists; `reloadsWith_of_stored`.
* `Handle` — a store of the file that somebody else has opened.
* `reload_reads_own_store` — which lists a reload finds, with its own store and with a new one.
* `reload_misses_written_lists` — lists that were written by another store are not found.
-/

namespace ResolverRace

/-- A store of the file at this path, opened at some time and changed since. -/
inductive Handle (path : String) : FileStore → Prop where
  | opened {disk : Disk} {file : FileStore} : FileStore.opened disk path = .ok file →
      Handle path file
  | put {file : FileStore} (disk : Disk) (key value : String) (hindrance : Option Error) :
      Handle path file → Handle path (file.put disk key value hindrance).1
  | remove {file : FileStore} (disk : Disk) (key : String) (hindrance : Option Error) :
      Handle path file → Handle path (file.remove disk key hindrance).1

theorem Handle.ordered {path : String} {file : FileStore} (h : Handle path file) :
    file.path = path ∧ file.values.Ordered := by
  induction h with
  | opened hfile => exact FileStore.ordered_of_opened hfile
  | put disk key value hindrance _ ih => exact ⟨ih.1, ih.2.insert key value⟩
  | remove disk key hindrance _ ih =>
    rw [FileStore.remove]
    split
    · exact ⟨ih.1, ih.2.erase key⟩
    · exact ih

namespace Service

/-- A reload finds these lists: the pool is made anew from them, or emptied with an error if the source
is gone. -/
structure ReloadsWith (s : Service) (lists : List UserList) (chance : Random.Stream) : Prop where
  found : ∀ c, c = { s.catalogue with lists := lists } → c.resolves s.source = true →
    ∃ pool, makePool c s.standing s.source chance = .ok pool ∧
      s.reload chance = ({ s with catalogue := c, pool := pool }, .ok pool.size)
  gone : ∀ c, c = { s.catalogue with lists := lists } → c.resolves s.source = false →
    ∃ id, s.source = .custom id ∧
      s.reload chance = ({ s with catalogue := c, pool := .empty }, .error (.pool (.unknownList id)))

section

variable {settings : Settings} {path : String} {s : Service} {lists : List UserList}

theorem reloadsWith_of_stored
    (h : withStoredLists s.catalogue s.store = .ok { s.catalogue with lists := lists })
    (chance : Random.Stream) : s.ReloadsWith lists chance := by
  refine ⟨?_, ?_⟩
  · rintro c rfl hresolves
    rw [← Catalogue.isSome_entries?] at hresolves
    obtain ⟨entries, hentries⟩ := Option.isSome_iff_exists.1 hresolves
    obtain ⟨pool, hpool, _⟩ := makePool_ok hentries s.standing chance
    refine ⟨pool, hpool, ?_⟩
    simp only [reload, h, rebuilt, hpool]
    rfl
  · rintro c rfl hgone
    cases hsource : s.source with
    | builtin =>
      rw [hsource] at hgone
      cases hgone
    | custom id =>
      rw [hsource] at hgone
      have hnone : ({ s.catalogue with lists := lists } : Catalogue).find? id = none :=
        Option.not_isSome_iff_eq_none.1 (Bool.eq_false_iff.1 hgone)
      refine ⟨id, rfl, ?_⟩
      simp only [reload, h, rebuilt, makePool, hsource, Catalogue.load, hnone]
      rfl

/-- What another store has written is found by a store that is opened now. -/
theorem reopened_of_written {other other' : FileStore} {disk : Disk} {value : String}
    {hindrance : Option Error} (hs : OnFile settings path s) (hother : Handle path other)
    (hput : other.put disk Store.listsKey value hindrance = (other', s.store.disk, .ok ()))
    (hvalue : (Json.parse? value).bind (UserList.allOfDatum? true) = some lists) :
    ∃ store, s.store.reopened = .ok store ∧ storedLists store = .ok (some lists) := by
  obtain ⟨rfl, hordered⟩ := hother.ordered
  obtain ⟨hother', hopened⟩ :=
    FileStore.opened_of_replace (hordered.insert Store.listsKey value) hput
  let store : Store := { s.store with backing := .file other' }
  refine ⟨store, by rw [hs.inFile.reopened, hopened]; rfl, ?_⟩
  have hreadable : store.Readable := hs.willing.readable
  have hvalues : store.values = other.values.insert Store.listsKey value :=
    congrArg FileStore.values hother'
  have hget : store.values.get? Store.listsKey = some value := by
    rw [hvalues, KeyMap.get?_insert, if_pos rfl]
  simp only [storedLists, hreadable.get, hget, hvalue]

end

/-- Whatever the file holds, a reload finds the lists that the service has. After another store of the
file has written lists, it finds these lists if the store of the service is opened anew, and the lists
that the service has if it is not. -/
theorem reload_reads_own_store {settings : Settings} {path : String} {s : Service}
    (hs : OnFile settings path s) (chance : Random.Stream) :
    s.ReloadsWith s.catalogue.lists chance ∧
    ∀ (other other' : FileStore) (value : String) (hindrance : Option Error) (disk : Disk)
      (lists : List UserList), Handle path other →
      other.put s.store.disk Store.listsKey value hindrance = (other', disk, .ok ()) →
      (Json.parse? value).bind (UserList.allOfDatum? true) = some lists →
      let s' : Service := { s with store := { s.store with disk := disk } }
      s'.ReloadsWith s.catalogue.lists chance ∧
        ∃ store, s'.store.reopened = .ok store ∧ storedLists store = .ok (some lists) ∧
          ({ s' with store := store } : Service).ReloadsWith lists chance := by
  have hown : ∀ {t : Service}, OnFile settings path t → t.ReloadsWith t.catalogue.lists chance :=
    fun ht => reloadsWith_of_stored ht.mirrored.lists.withStoredLists chance
  refine ⟨hown hs, ?_⟩
  intro other other' value hindrance disk lists hother hput hvalue s'
  have hs' : OnFile settings path s' := .meanwhile s.store.refusals disk hs hs.willing
  obtain ⟨store, hreopened, hstored⟩ := reopened_of_written hs' hother hput hvalue
  refine ⟨hown hs', store, hreopened, hstored, reloadsWith_of_stored ?_ chance⟩
  rw [withStoredLists, hstored]
  rfl

/-- Two stores of one file are opened, and the second one writes lists without the selected one. The
service on the first one keeps its pool when it reloads; with its store opened anew it loses it. -/
theorem reload_before_and_after_reopening :
    let settings : Settings := { Settings.default with
      selection := { Selection.default with source := .custom "home" }
      lists := [⟨"home", "Home", ["one"]⟩] }
    let file : FileStore := ⟨"s", .empty⟩
    let chance : Random.Stream := ⟨fun _ => 0, 0⟩
    let lists : List UserList := [⟨"work", "Work", ["two"]⟩]
    let value : String := Json.compact (.list (lists.map UserList.toDatum))
    ∃ s disk store, create settings ⟨.file file, [], .empty⟩ chance = .ok s ∧
      (file.put .empty Store.listsKey value none).2 = (disk, .ok ()) ∧
      let s' : Service := { s with store := { s.store with disk := disk } }
      s'.ReloadsWith [⟨"home", "Home", ["one"]⟩] chance ∧
      s'.store.reopened = .ok store ∧
      ({ s' with store := store }.reload chance).2 = .error (.pool (.unknownList "home")) := by
  intro settings file chance lists value
  obtain ⟨s, hs⟩ : ∃ s, create settings ⟨.file file, [], .empty⟩ chance = .ok s := ⟨_, rfl⟩
  have hfile : FileStore.opened .empty "s" = .ok file := by decide +kernel
  have hon : OnFile settings "s" s := .create hfile (by decide) hs
  have hdisk : s.store.disk = .empty := by rw [(create_cases hs).2.2.1]
  have hok : (file.put .empty Store.listsKey value none).2.2 = .ok () := by decide +kernel
  let disk : Disk := (file.put .empty Store.listsKey value none).2.1
  have hput : file.put s.store.disk Store.listsKey value none =
      ((file.put .empty Store.listsKey value none).1, disk, .ok ()) := by
    rw [hdisk]
    exact Prod.ext rfl (Prod.ext rfl hok)
  obtain ⟨hkeeps, store, hreopened, _, hfinds⟩ :=
    (reload_reads_own_store hon chance).2 file _ value none disk lists (.opened hfile) hput
      (parse?_lists lists)
  have hsource : s.source = .custom "home" := by cases hs; rfl
  have hgone : ({ s.catalogue with lists := lists } : Catalogue).resolves s.source = false := by
    rw [hsource]
    rfl
  obtain ⟨id, hid, hreload⟩ := hfinds.gone _ rfl hgone
  obtain rfl : "home" = id := Source.custom.inj (hsource.symm.trans hid)
  refine ⟨s, disk, store, hs, Prod.ext rfl hok, ?_, hreopened, congrArg Prod.snd hreload⟩
  have hlists : s.catalogue.lists = [⟨"home", "Home", ["one"]⟩] := by cases hs; rfl
  exact hlists ▸ hkeeps

/-- A service has been made from the file when another store of the file, opened at the same time,
writes lists. After a reload the service has its old lists, and the file holds the new ones. -/
theorem reload_misses_written_lists :
    let settings : Settings := { Settings.default with
      selection := { Selection.default with source := .custom "home" }
      lists := [⟨"home", "Home", ["one"]⟩] }
    let file : FileStore := ⟨"s", .empty⟩
    let chance : Random.Stream := ⟨fun _ => 0, 0⟩
    let lists : List UserList := [⟨"home", "Home", ["two"]⟩]
    let value : String := Json.compact (.list (lists.map UserList.toDatum))
    ∃ s disk store, FileStore.opened .empty "s" = .ok file ∧
      create settings ⟨.file file, [], .empty⟩ chance = .ok s ∧
      (file.put .empty Store.listsKey value none).2 = (disk, .ok ()) ∧
      let s' : Service := { s with store := { s.store with disk := disk } }
      s'.store.reopened = .ok store ∧ storedLists store = .ok (some lists) ∧
      (s'.reload chance).2 = .ok 1 ∧
      (s'.reload chance).1.catalogue.lists = [⟨"home", "Home", ["one"]⟩] := by
  intro settings file chance lists value
  obtain ⟨s, hs⟩ : ∃ s, create settings ⟨.file file, [], .empty⟩ chance = .ok s := ⟨_, rfl⟩
  have hfile : FileStore.opened .empty "s" = .ok file := by decide +kernel
  have hok : (file.put .empty Store.listsKey value none).2.2 = .ok () := by decide +kernel
  let disk : Disk := (file.put .empty Store.listsKey value none).2.1
  have hput : file.put .empty Store.listsKey value none =
      ((file.put .empty Store.listsKey value none).1, disk, .ok ()) :=
    Prod.ext rfl (Prod.ext rfl hok)
  let s' : Service := { s with store := { s.store with disk := disk } }
  have hon : OnFile settings "s" s' := .meanwhile _ disk (.create hfile (by decide) hs)
    (OnFile.create hfile (by decide) hs).willing
  obtain ⟨store, hreopened, hstored⟩ :=
    reopened_of_written hon (.opened hfile) hput (parse?_lists lists)
  have hrun : (create settings ⟨.file file, [], .empty⟩ chance).toOption.map (fun s =>
      let reloaded := { s with store := { s.store with disk := disk } }.reload chance
      (reloaded.2, reloaded.1.catalogue.lists)) =
      some (.ok 1, [⟨"home", "Home", ["one"]⟩]) := by
    simp only [settings, file, chance, disk, value, lists]
    decide +kernel
  rw [hs] at hrun
  have hanswers := Option.some.inj hrun
  exact ⟨s, disk, store, hfile, hs, Prod.ext rfl hok, hreopened, hstored,
    congrArg Prod.fst hanswers, congrArg Prod.snd hanswers⟩

end Service
end ResolverRace
