import ResolverRace.Proofs.Service.Acknowledged
import ResolverRace.Proofs.Session.History

/-!
# Services that agree

An edit of a list, or a report, goes by the lists, by what is remembered and by what is selected. So
services that agree in these, on stores that hold the same, still agree after the same edit or
report, whatever pools, races and random words they have. If they do not agree in what is selected,
they still agree in all the rest.

* `Store.SameOutside.changeAll` — the same changes of stores that hold the same.
* `Operation.Akin` — the same edit or report, with random words of its own.
* `removeList_found` — how a list is deleted if no write fails.
* `Service.Agrees`, `Agrees.serve` — services that agree, through the same edit or report.
-/

namespace ResolverRace

namespace Store

section

variable {keys : List String} {s s' : Store}

theorem SameOutside.change (h : s.SameOutside keys s') (hs : s.Takes) (hs' : s'.Takes)
    (c : Change) : (s.change c).1.SameOutside keys (s'.change c).1 := by
  intro k hk
  have hvalue : (s.change c).1.values.get? k = (c.applyTo s.values).get? k := hs [] c k
  have hvalue' : (s'.change c).1.values.get? k = (c.applyTo s'.values).get? k := hs' [] c k
  rw [hvalue, hvalue', c.get?_applyTo, c.get?_applyTo, h k hk]

theorem SameOutside.changeAll (h : s.SameOutside keys s') (hs : s.Takes) (hs' : s'.Takes)
    (changes : List Change) : (s.changeAll changes).SameOutside keys (s'.changeAll changes) := by
  induction changes generalizing s s' with
  | nil => exact h
  | cons c changes ih => exact ih (h.change hs hs' c) (hs.change c) (hs'.change c)

/-- Changes of one of the keys do not count. -/
theorem sameOutside_change {c : Change} (hc : c.key ∈ keys) (s : Store) :
    s.SameOutside keys (s.change c).1 := by
  intro k hk
  refine s.values_change_other fun he => hk ?_
  rw [← he]
  exact hc

end

end Store

namespace Catalogue

theorem find?_congr {c c' : Catalogue} (h : c'.lists = c.lists) (id : String) :
    c'.find? id = c.find? id := by rw [find?, find?, h]

theorem lists_upsert_congr {c c' : Catalogue} (h : c'.lists = c.lists) (l : UserList) :
    (c'.upsert l).lists = (c.upsert l).lists := by
  rw [upsert, upsert, find?_congr h, h]
  split <;> rfl

end Catalogue

namespace Service

/-- The same edit of a list, or the same report of an address that was read from a text. -/
inductive Operation.Akin : Operation → Operation → Prop where
  | upsertList (l : UserList) (chance chance' : Random.Stream) :
      Akin (.upsertList l chance) (.upsertList l chance')
  | removeList (id : String) (chance chance' : Random.Stream) :
      Akin (.removeList id chance) (.removeList id chance')
  | addEntry (id entry : String) (chance chance' : Random.Stream) :
      Akin (.addEntry id entry chance) (.addEntry id entry chance')
  | removeEntry (id : String) (a : Address) (chance chance' : Random.Stream) :
      Akin (.removeEntry id a chance) (.removeEntry id a chance')
  | notify {text : String} {a : Address} (worked : Bool) : Address.parse text = .ok a →
      Akin (.notify a worked) (.notify a worked)

theorem Operation.Akin.symm {o o' : Operation} (h : o.Akin o') : o'.Akin o := by
  cases h with
  | upsertList l chance chance' => exact .upsertList l chance' chance
  | removeList id chance chance' => exact .removeList id chance' chance
  | addEntry id entry chance chance' => exact .addEntry id entry chance' chance
  | removeEntry id a chance chance' => exact .removeEntry id a chance' chance
  | notify worked hread => exact .notify worked hread

/-- The lists are the same, and what is remembered of outcomes, and what the stores hold outside
some keys. The source is the same unless its key is one of these. -/
structure Agrees (keys : List String) (s s' : Service) : Prop where
  lists : s'.catalogue.lists = s.catalogue.lists
  standing : s'.standing = s.standing
  source : Store.sourceKey ∉ keys → s'.source = s.source
  store : s.store.SameOutside keys s'.store

section

variable {keys : List String} {s s' s'' : Service} {probe probe' : Probe}

theorem Agrees.refl (keys : List String) (s : Service) : s.Agrees keys s :=
  ⟨rfl, rfl, fun _ => rfl, .refl keys s.store⟩

theorem Agrees.trans (h : s.Agrees keys s') (h' : s'.Agrees keys s'') : s.Agrees keys s'' :=
  ⟨h'.lists.trans h.lists, h'.standing.trans h.standing,
    fun hkeys => (h'.source hkeys).trans (h.source hkeys),
    fun k hk => (h'.store k hk).trans (h.store k hk)⟩

theorem Agrees.symm (h : s.Agrees keys s') : s'.Agrees keys s :=
  ⟨h.lists.symm, h.standing.symm, fun hkeys => (h.source hkeys).symm,
    fun k hk => (h.store k hk).symm⟩

theorem Agrees.key_mem (h : s.Agrees keys s') (hne : s'.source ≠ s.source) :
    Store.sourceKey ∈ keys := by
  by_contra hkey
  exact hne (h.source hkey)

/-! ## Writes -/

theorem Agrees.saveLists (h : s.Agrees keys s') (hs : s.store.Takes) (hs' : s'.store.Takes) :
    s.saveLists.1.Agrees keys s'.saveLists.1 := by
  let text := Json.compact (.list (s.catalogue.lists.map UserList.toDatum))
  have hsaved : s'.saveLists.1.store = (s'.store.change (.put Store.listsKey text)).1 := by
    rw [Service.saveLists, h.lists]
    rfl
  refine ⟨h.lists, h.standing, h.source, ?_⟩
  rw [hsaved]
  exact h.store.change hs hs' (.put Store.listsKey text)

theorem Agrees.saveSource (h : s.Agrees keys s') (hs : s.store.Takes) (hs' : s'.store.Takes)
    (source : Source) : (s.saveSource source).1.Agrees keys (s'.saveSource source).1 :=
  ⟨h.lists, h.standing, h.source, h.store.change hs hs' (.put Store.sourceKey source.text)⟩

theorem Agrees.editList {α β : Type} (h : s.Agrees keys s') (hs : s.store.Takes)
    (hs' : s'.store.Takes) (l : UserList) (answer : α) (answer' : β)
    (chance chance' : Random.Stream) :
    (s.editList l answer chance).1.Agrees keys (s'.editList l answer' chance').1 := by
  obtain ⟨pool, _, _, hafter⟩ := s.afterEdit_eq l chance
  obtain ⟨pool', _, _, hafter'⟩ := s'.afterEdit_eq l chance'
  let t : Service := { s with catalogue := s.catalogue.upsert l, pool := pool }
  let t' : Service := { s' with catalogue := s'.catalogue.upsert l, pool := pool' }
  have hedited : t.Agrees keys t' :=
    ⟨Catalogue.lists_upsert_congr h.lists l, h.standing, h.source, h.store⟩
  rw [Service.editList, Service.editList, hafter, hafter']
  exact hedited.saveLists hs hs'

/-! ## Edits and reports -/

theorem Agrees.upsertList (h : s.Agrees keys s') (hs : s.store.Takes) (hs' : s'.store.Takes)
    (l : UserList) (chance chance' : Random.Stream) :
    (s.upsertList l chance).1.Agrees keys (s'.upsertList l chance').1 := by
  rw [Service.upsertList, Service.upsertList]
  split
  · exact h
  · exact h.editList hs hs' l _ _ chance chance'

theorem Agrees.addEntry (h : s.Agrees keys s') (hs : s.store.Takes) (hs' : s'.store.Takes)
    (id entry : String) (chance chance' : Random.Stream) :
    (s.addEntry id entry chance).1.Agrees keys (s'.addEntry id entry chance').1 := by
  rw [Service.addEntry, Service.addEntry, Catalogue.find?_congr h.lists]
  split
  · exact h
  · split
    · exact h
    · exact h
    · exact h.editList hs hs' _ true true chance chance'

theorem Agrees.removeEntry (h : s.Agrees keys s') (hs : s.store.Takes) (hs' : s'.store.Takes)
    (id : String) (a : Address) (chance chance' : Random.Stream) :
    (s.removeEntry id a chance).1.Agrees keys (s'.removeEntry id a chance').1 := by
  rw [Service.removeEntry, Service.removeEntry, Catalogue.find?_congr h.lists]
  split
  · exact h
  · split
    · exact h.editList hs hs' _ true true chance chance'
    · exact h

/-- Where the key of the source does not count, it does not count that a source is stored. -/
theorem agrees_saveSource (hkey : Store.sourceKey ∈ keys) (s : Service) (source : Source) :
    s.Agrees keys (s.saveSource source).1 := by
  have hstore := Store.sameOutside_change (c := .put Store.sourceKey source.text) hkey s.store
  exact ⟨rfl, rfl, fun _ => rfl, hstore⟩

/-- If no write fails, the lists are stored without the deleted one, and if that was selected then
the built-in list is stored as the choice. -/
theorem removeList_found {id : String} {removed : UserList} (hs : s.store.Reliable)
    (hfound : s.catalogue.find? id = some removed) (chance : Random.Stream) :
    (s.source ≠ .custom id ∧ (s.removeList id chance).1 =
        ({ s with catalogue := s.catalogue.remove id } : Service).saveLists.1) ∨
      (s.source = .custom id ∧ ∃ pool, (s.removeList id chance).1 =
        (({ s with catalogue := s.catalogue.remove id, source := .builtin, pool := pool } :
          Service).saveLists.1.saveSource .builtin).1) := by
  have hdeletion := deletion_removeList hfound chance
  generalize s.removeList id chance = r at hdeletion ⊢
  cases hdeletion with
  | other hsource ht =>
    subst ht
    exact .inl ⟨hsource, rfl⟩
  | @unsaved t pool _ e _ _ ht hsave =>
    subst ht
    cases hsave.symm.trans (hs.writes [] (.put Store.listsKey _))
  | @deposed t pool _ hsource _ ht _ =>
    subst ht
    exact .inr ⟨hsource, pool, rfl⟩

theorem Agrees.unlist (h : s.Agrees keys s') (hs : s.store.Takes) (hs' : s'.store.Takes)
    (id : String) {source source' : Source} (pool pool' : Pool)
    (hsource : Store.sourceKey ∉ keys → source' = source) :
    ({ s with catalogue := s.catalogue.remove id, source := source, pool := pool } :
        Service).saveLists.1.Agrees keys
      ({ s' with catalogue := s'.catalogue.remove id, source := source', pool := pool' } :
        Service).saveLists.1 := by
  have hlists : (s'.catalogue.remove id).lists = (s.catalogue.remove id).lists := by
    rw [Catalogue.remove, Catalogue.remove, h.lists]
  exact Agrees.saveLists ⟨hlists, h.standing, hsource, h.store⟩ hs hs'

theorem Agrees.removeList (h : s.Agrees keys s') (hs : s.store.Reliable) (hs' : s'.store.Reliable)
    (id : String) (chance chance' : Random.Stream) :
    (s.removeList id chance).1.Agrees keys (s'.removeList id chance').1 := by
  have hfind := Catalogue.find?_congr h.lists id
  cases hfound : s.catalogue.find? id with
  | none =>
    rw [hfound] at hfind
    simp only [Service.removeList, hfound, hfind]
    exact h
  | some removed =>
    rw [hfound] at hfind
    -- If they do not agree in the source, the one that had the list selected stores its new choice.
    rcases removeList_found hs hfound chance with ⟨hne, hremove⟩ | ⟨heq, pool, hremove⟩
    · rcases removeList_found hs' hfind chance' with ⟨_, hremove'⟩ | ⟨heq', pool', hremove'⟩
      · rw [hremove, hremove']
        exact h.unlist hs.takes hs'.takes id s.pool s'.pool h.source
      · have hkey := h.key_mem (heq' ▸ hne.symm)
        rw [hremove, hremove']
        exact (h.unlist hs.takes hs'.takes id s.pool pool' (absurd hkey)).trans
          (agrees_saveSource hkey _ .builtin)
    · rcases removeList_found hs' hfind chance' with ⟨hne', hremove'⟩ | ⟨_, pool', hremove'⟩
      · have hkey := h.key_mem (heq ▸ hne')
        rw [hremove, hremove']
        exact (agrees_saveSource hkey _ .builtin).symm.trans
          (h.unlist hs.takes hs'.takes id pool s'.pool (absurd hkey))
      · rw [hremove, hremove']
        exact (h.unlist hs.takes hs'.takes id pool pool' fun _ => rfl).saveSource
          (hs.takes.change (.put Store.listsKey _)) (hs'.takes.change (.put Store.listsKey _))
          .builtin

theorem Agrees.notify (h : s.Agrees keys s') (hs : s.store.Takes) (hs' : s'.store.Takes)
    (a : Address) (worked : Bool) : (s.notify a worked).1.Agrees keys (s'.notify a worked).1 := by
  obtain ⟨changes, hchanges, _⟩ := notify_changes s.standing a worked
  have hstore := h.store.changeAll hs hs' changes
  rw [← hchanges s rfl, ← hchanges s' h.standing] at hstore
  refine ⟨?_, ?_, ?_, hstore⟩
  · cases worked <;> exact h.lists
  · cases worked with
    | true =>
      have hs : (s.notify a true).1.standing = s.standing.succeeded a :=
        Standing.recordSuccess_fst ..
      have hs' : (s'.notify a true).1.standing = s'.standing.succeeded a :=
        Standing.recordSuccess_fst ..
      rw [hs, hs', h.standing]
    | false => exact congrArg (Standing.failed · a) h.standing
  · cases worked <;> exact h.source

/-- The same edit or report of services that agree, whose stores never fail. -/
theorem Agrees.serve {o o' : Operation} (h : s.Agrees keys s') (hs : s.store.Reliable)
    (hs' : s'.store.Reliable) (ho : o.Akin o') :
    (s.serve probe o).Agrees keys (s'.serve probe' o') := by
  cases ho with
  | upsertList l chance chance' => exact h.upsertList hs.takes hs'.takes l chance chance'
  | removeList id chance chance' => exact h.removeList hs hs' id chance chance'
  | addEntry id entry chance chance' => exact h.addEntry hs.takes hs'.takes id entry chance chance'
  | removeEntry id a chance chance' => exact h.removeEntry hs.takes hs'.takes id a chance chance'
  | notify worked _ => exact h.notify hs.takes hs'.takes _ worked

end

end Service
end ResolverRace
