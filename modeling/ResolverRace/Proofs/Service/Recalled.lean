import ResolverRace.Proofs.Standing
import ResolverRace.Proofs.Pool.Order
import ResolverRace.Service

/-!
# What a new service reads from a store

A store stands for lists, a source and what is remembered of outcomes; where it holds nothing the
settings count. A service made from the store has exactly these, and each of the writes of a service
replaces one of them and leaves the others.

* `Service.Recalled` — what a store stands for.
* `create_of_read` — what can be read is enough for a new service.
* `Recalled.create` — a new service has what its store stands for.
* `Recalled.putLists`, `Recalled.putSource`, `Recalled.recordSuccess`, `Recalled.recordFailure` —
  the writes.
-/

namespace ResolverRace

theorem Standing.Stored.frame {t : Standing} {s s' : Store} {keys : List String} (h : t.Stored s)
    (hsame : s.SameOutside keys s') (hlast : Store.lastKey ∉ keys)
    (hdemoted : Store.demotedKey ∉ keys) : t.Stored s' := by
  refine ⟨?_, ?_⟩
  · rw [hsame _ hlast]
    exact h.last
  · rw [hsame _ hdemoted]
    exact h.demoted

/-- Which sources can be loaded depends on the lists alone. -/
theorem Catalogue.resolves_congr {c c' : Catalogue} (h : c'.lists = c.lists) (source : Source) :
    c'.resolves source = c.resolves source := by
  cases source with
  | builtin => rfl
  | custom id => simp only [resolves, find?, h]

namespace Service

/-- What a store stands for under some settings, if no access to it fails. -/
structure Recalled (settings : Settings) (store : Store) (lists : List UserList) (source : Source)
    (standing : Standing) : Prop where
  reliable : store.Reliable
  lists_eq : (storedLists store).map (·.getD settings.lists) = .ok lists
  source_eq : (storedSource store).map (·.getD settings.selection.source) = .ok source
  standing_eq : standing.Stored store

theorem map_eq_ok {α β : Type} {f : α → β} {x : Except Error α} {b : β} (h : x.map f = .ok b) :
    ∃ a, x = .ok a ∧ f a = b := by
  cases x with
  | error e => cases h
  | ok a => cases h; exact ⟨a, rfl, rfl⟩

theorem eq_ok_of_toOption {ε α : Type} {x : Except ε α} {a : α} (h : x.toOption = some a) :
    x = .ok a := by
  cases x with
  | error e => cases h
  | ok b => exact congrArg Except.ok (Option.some.inj h)

theorem withStoredLists_ok {c : Catalogue} {store : Store} {lists : List UserList}
    (h : (storedLists store).map (·.getD c.lists) = .ok lists) :
    withStoredLists c store = .ok { c with lists := lists } := by
  obtain ⟨stored, hstored, hlists⟩ := map_eq_ok h
  rw [withStoredLists, hstored]
  cases stored <;> · cases hlists; rfl

theorem chooseSource_eq {c : Catalogue} {stored : Option Source} {configured source : Source}
    (h : stored.getD configured = source) (hresolves : c.resolves source = true) :
    chooseSource c stored configured = source := by
  subst h
  cases stored with
  | none =>
    have hconfigured : c.resolves configured = true := hresolves
    simp [chooseSource, hconfigured]
  | some chosen =>
    have hchosen : c.resolves chosen = true := hresolves
    simp [chooseSource, hchosen]

theorem lists_catalogue (settings : Settings) (disk : Disk) :
    (settings.catalogue disk).lists = settings.lists := by
  rw [Settings.catalogue]
  cases settings.selection.builtinList with
  | none => rfl
  | some path =>
    simp only [Catalogue.ofFile]
    cases disk.readText path <;> rfl

theorem resolves_chooseSource (c : Catalogue) (stored : Option Source) (configured : Source) :
    c.resolves (chooseSource c stored configured) = true := by
  rw [chooseSource]
  cases hfind : (stored.toList ++ [configured]).find? c.resolves with
  | none => rfl
  | some source => exact List.find?_some hfind

section

variable {settings : Settings} {store : Store} {lists : List UserList} {source : Source}
  {standing : Standing}

/-- As soon as the settings pass their check and all that is stored can be read, a service is made:
the source that is chosen can be loaded. -/
theorem create_of_read {c : Catalogue} {stored : Option Source}
    (hvalid : settings.validate = .ok ())
    (hc : withStoredLists (settings.catalogue store.disk) store = .ok c)
    (hload : Standing.load store = .ok standing) (hstored : storedSource store = .ok stored)
    (chance : Random.Stream) :
    ∃ pool,
      makePool c standing (chooseSource c stored settings.selection.source) chance = .ok pool ∧
      create settings store chance = .ok
        { session := .idle, standing := standing, store := store, defaults := settings.params,
          catalogue := c, source := chooseSource c stored settings.selection.source,
          pool := pool } := by
  have hopened : Tracked.opened store = .ok ⟨.idle, standing, store⟩ := by
    rw [Tracked.opened, hload]
    rfl
  have hresolves := resolves_chooseSource c stored settings.selection.source
  rw [← Catalogue.isSome_entries?] at hresolves
  obtain ⟨entries, hentries⟩ := Option.isSome_iff_exists.1 hresolves
  obtain ⟨loaded, rest, hloaded, _⟩ := Catalogue.load_perm hentries chance
  have hpool : makePool c standing (chooseSource c stored settings.selection.source) chance =
      .ok (standing.apply loaded.pool) := by
    rw [makePool, hloaded]
  refine ⟨standing.apply loaded.pool, hpool, ?_⟩
  simp only [Service.create, hvalid, hc, hopened, hstored, hpool, bind, Except.bind, pure,
    Except.pure]

/-- A new service has what its store stands for. Only what can be read counts, so another store
with the same contents does as well. -/
theorem Recalled.create {store' : Store} {c : Catalogue}
    (h : Recalled settings store lists source standing) (hvalid : settings.validate = .ok ())
    (hlists : c.lists = lists) (hresolves : c.resolves source = true)
    (hsame : ∀ key, store'.get key = store.get key) (chance : Random.Stream) :
    ∃ s, create settings store' chance = .ok s ∧ s.catalogue.lists = lists ∧ s.source = source ∧
      s.standing = standing ∧ s.store = store' ∧ s.session = .idle := by
  have hstoredLists : storedLists store' = storedLists store := by simp only [storedLists, hsame]
  have hstoredSource : storedSource store' = storedSource store := by
    simp only [storedSource, hsame]
  let catalogue : Catalogue := { settings.catalogue store'.disk with lists := lists }
  have hcatalogue : withStoredLists (settings.catalogue store'.disk) store' = .ok catalogue := by
    refine withStoredLists_ok ?_
    rw [hstoredLists, lists_catalogue]
    exact h.lists_eq
  have hload : Standing.load store' = .ok standing := by
    rw [Standing.load_congr hsame, h.standing_eq.load h.reliable]
  obtain ⟨stored, hstored, hsource⟩ := map_eq_ok h.source_eq
  have hfound : catalogue.resolves source = true := by
    rw [Catalogue.resolves_congr (c := c) hlists.symm]
    exact hresolves
  have hchosen : chooseSource catalogue stored settings.selection.source = source :=
    chooseSource_eq hsource hfound
  rw [← hstoredSource] at hstored
  obtain ⟨pool, _, hcreate⟩ := create_of_read hvalid hcatalogue hload hstored chance
  exact ⟨_, hcreate, rfl, hchosen, rfl, rfl, rfl⟩

/-- Lists that are read again are those that are there. -/
theorem Recalled.withStoredLists {c : Catalogue}
    (h : Recalled settings store c.lists source standing) : withStoredLists c store = .ok c := by
  obtain ⟨stored, hstored, hlists⟩ := map_eq_ok h.lists_eq
  rw [Service.withStoredLists, hstored]
  cases stored with
  | none => rfl
  | some lists =>
    have hsame : lists = c.lists := hlists
    rw [hsame]
    rfl

/-! ## Writes -/

theorem storedLists_congr {s t : Store} (hs : s.Reliable) (ht : t.Reliable)
    (h : t.values.get? Store.listsKey = s.values.get? Store.listsKey) :
    storedLists t = storedLists s := by
  simp only [storedLists, hs.get, ht.get, h]

theorem storedSource_congr {s t : Store} (hs : s.Reliable) (ht : t.Reliable)
    (h : t.values.get? Store.sourceKey = s.values.get? Store.sourceKey) :
    storedSource t = storedSource s := by
  simp only [storedSource, hs.get, ht.get, h]

theorem plain_lists (lists : List UserList) : Json.Plain (.list (lists.map UserList.toDatum)) := by
  refine .list fun item hitem => ?_
  obtain ⟨l, _, rfl⟩ := List.mem_map.1 hitem
  refine .record fun field hfield => ?_
  rcases List.mem_cons.1 hfield with rfl | hfield
  · exact .text l.id
  rcases List.mem_cons.1 hfield with rfl | hfield
  · exact .text l.name
  rcases List.mem_cons.1 hfield with rfl | hfield
  · refine .list fun entry hentry => ?_
    obtain ⟨text, _, rfl⟩ := List.mem_map.1 hentry
    exact .text text
  · cases hfield

/-- Stored lists replace those that the store stood for. -/
theorem Recalled.putLists (h : Recalled settings store lists source standing)
    (lists' : List UserList) :
    ∃ store', store.put Store.listsKey (Json.compact (.list (lists'.map UserList.toDatum))) =
        (store', .ok ()) ∧ Recalled settings store' lists' source standing := by
  obtain ⟨store', hput, hreliable, hvalue, hsame⟩ :=
    h.reliable.put Store.listsKey (Json.compact (.list (lists'.map UserList.toDatum)))
  refine ⟨store', hput, hreliable, ?_, ?_, h.standing_eq.frame hsame (by decide) (by decide)⟩
  · have hread : (Json.parse? (Json.compact (.list (lists'.map UserList.toDatum)))).bind
        (UserList.allOfDatum? true) = some lists' := by
      rw [Json.parse?_compact (plain_lists lists')]
      exact UserList.allOfDatum?_map true lists'
    have hstored : storedLists store' = .ok (some lists') := by
      simp only [storedLists, hreliable.get, hvalue, hread]
    rw [hstored]
    rfl
  · rw [storedSource_congr h.reliable hreliable (hsame _ (by decide))]
    exact h.source_eq

/-- A stored source replaces the one that the store stood for. -/
theorem Recalled.putSource {source' : Source} (h : Recalled settings store lists source standing)
    (hid : ∀ id, source' = .custom id → Source.IsId id) :
    ∃ store', store.put Store.sourceKey source'.text = (store', .ok ()) ∧
      Recalled settings store' lists source' standing := by
  obtain ⟨store', hput, hreliable, hvalue, hsame⟩ := h.reliable.put Store.sourceKey source'.text
  refine ⟨store', hput, hreliable, ?_, ?_, h.standing_eq.frame hsame (by decide) (by decide)⟩
  · rw [storedLists_congr h.reliable hreliable (hsame _ (by decide))]
    exact h.lists_eq
  · have hstored : storedSource store' = .ok (some source') := by
      simp only [storedSource, hreliable.get, hvalue]
      show Except.ok (Source.parse source'.text).toOption = _
      rw [Source.parse_text hid]
      rfl
    rw [hstored]
    rfl

/-- What was recorded of an outcome replaces what the store stood for. -/
theorem Recalled.frame {store' : Store} {standing' : Standing}
    (h : Recalled settings store lists source standing) (hreliable : store'.Reliable)
    (hstored : standing'.Stored store')
    (hsame : store.SameOutside [Store.lastKey, Store.demotedKey] store') :
    Recalled settings store' lists source standing' := by
  refine ⟨hreliable, ?_, ?_, hstored⟩
  · rw [storedLists_congr h.reliable hreliable (hsame _ (by decide))]
    exact h.lists_eq
  · rw [storedSource_congr h.reliable hreliable (hsame _ (by decide))]
    exact h.source_eq

theorem Recalled.recordSuccess {a : Address} (h : Recalled settings store lists source standing)
    (ha : a.Proper) :
    ∃ store', standing.recordSuccess store a = (standing.succeeded a, store', .ok ()) ∧
      Recalled settings store' lists source (standing.succeeded a) := by
  obtain ⟨store', hrecord, hreliable, hstored, hsame⟩ :=
    h.standing_eq.recordSuccess h.reliable ha
  exact ⟨store', hrecord, h.frame hreliable hstored hsame⟩

theorem Recalled.recordFailure {a : Address} (h : Recalled settings store lists source standing)
    (ha : a.Proper) :
    ∃ store', standing.recordFailure store a = (standing.failed a, store', .ok ()) ∧
      Recalled settings store' lists source (standing.failed a) := by
  obtain ⟨store', hrecord, hreliable, hstored, hsame⟩ :=
    h.standing_eq.recordFailure h.reliable ha
  exact ⟨store', hrecord, h.frame hreliable hstored hsame⟩

end

end Service
end ResolverRace
