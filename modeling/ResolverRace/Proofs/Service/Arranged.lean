import ResolverRace.Proofs.Service.Recalled
import ResolverRace.Proofs.Standing.Lag
import ResolverRace.Service.Operation

/-!
# What arranging lists and sources does

Whoever reloads, selects a source or edits a list changes the lists, the source and the live pool,
and puts lists or a source into the store. The session, what is remembered of outcomes and where it
is stored stay as they are, whatever is answered.

* `Service.Arranges` — what all these operations have in common, and one lemma for each of them.
* `Operation.arranges`, `arranges_serve` — which operations these are.
* `create_cases` — what a new service is made of.
-/

namespace ResolverRace
namespace Service

/-- The changes of the store that arranging makes. -/
inductive OfArranging : Store.Change → Prop where
  | putLists (lists : List UserList) :
      OfArranging (.put Store.listsKey (Json.compact (.list (lists.map UserList.toDatum))))
  | putSource (source : Source) : OfArranging (.put Store.sourceKey source.text)

theorem OfArranging.key_mem {c : Store.Change} (h : OfArranging c) :
    c.key ∈ [Store.listsKey, Store.sourceKey] := by
  cases h <;> simp [Store.Change.key]

/-- How a pool comes about without an outcome: it is kept, emptied or made anew. -/
inductive Pooled (t : Standing) (old : Pool) : Pool → Prop where
  | kept : Pooled t old old
  | emptied : Pooled t old .empty
  | made {c : Catalogue} {source : Source} {chance : Random.Stream} {p : Pool} :
      makePool c t source chance = .ok p → Pooled t old p

theorem Pooled.trans {t : Standing} {p q r : Pool} (h₁ : Pooled t p q) (h₂ : Pooled t q r) :
    Pooled t p r := by
  cases h₂ with
  | kept => exact h₁
  | emptied => exact .emptied
  | made hpool => exact .made hpool

/-- From a service to one with other lists, another source and another pool. -/
structure Arranges (s s' : Service) : Prop where
  session : s'.session = s.session
  standing : s'.standing = s.standing
  defaults : s'.defaults = s.defaults
  pool : Pooled s.standing s.pool s'.pool
  store : ∃ changes, s'.store = s.store.changeAll changes ∧ ∀ c ∈ changes, OfArranging c

section

variable {s t u : Service}

theorem Arranges.refl (s : Service) : s.Arranges s :=
  ⟨rfl, rfl, rfl, .kept, [], rfl, fun _ hc => by cases hc⟩

theorem Arranges.trans (h₁ : s.Arranges t) (h₂ : t.Arranges u) : s.Arranges u := by
  obtain ⟨changes₁, hstore₁, hall₁⟩ := h₁.store
  obtain ⟨changes₂, hstore₂, hall₂⟩ := h₂.store
  refine ⟨h₂.session.trans h₁.session, h₂.standing.trans h₁.standing,
    h₂.defaults.trans h₁.defaults, h₁.pool.trans (h₁.standing ▸ h₂.pool), changes₁ ++ changes₂, ?_, ?_⟩
  · rw [hstore₂, hstore₁, Store.changeAll_append]
  · exact List.forall_mem_append.2 ⟨hall₁, hall₂⟩

theorem Arranges.value_eq (h : s.Arranges t) {key : String}
    (hkey : key ∉ [Store.listsKey, Store.sourceKey]) :
    t.store.values.get? key = s.store.values.get? key := by
  obtain ⟨changes, hstore, hall⟩ := h.store
  rw [hstore]
  refine Store.values_changeAll s.store fun c hc he => hkey ?_
  rw [← he]
  exact (hall c hc).key_mem

theorem Arranges.reliable (h : s.Arranges t) (hs : s.store.Reliable) : t.store.Reliable := by
  obtain ⟨changes, hstore, _⟩ := h.store
  exact hstore ▸ hs.changeAll changes

theorem arranges_catalogue (s : Service) (c : Catalogue) (source : Source) :
    s.Arranges { s with catalogue := c, source := source } :=
  ⟨rfl, rfl, rfl, .kept, [], rfl, fun _ hc => by cases hc⟩

theorem arranges_saveLists (s : Service) : s.Arranges s.saveLists.1 :=
  ⟨rfl, rfl, rfl, .kept, _, rfl, List.forall_mem_singleton.2 (.putLists s.catalogue.lists)⟩

theorem arranges_saveSource (s : Service) (source : Source) : s.Arranges (s.saveSource source).1 :=
  ⟨rfl, rfl, rfl, .kept, _, rfl, List.forall_mem_singleton.2 (.putSource source)⟩

theorem arranges_made {c : Catalogue} {source : Source} {chance : Random.Stream} {p : Pool}
    (h : makePool c s.standing source chance = .ok p) : s.Arranges { s with pool := p } :=
  ⟨rfl, rfl, rfl, .made h, [], rfl, fun _ hc => by cases hc⟩

theorem arranges_rebuilt {chance : Random.Stream} (h : s.rebuilt chance = .ok t) :
    s.Arranges t := by
  obtain ⟨p, hpool, rfl⟩ := map_eq_ok h
  exact arranges_made hpool

theorem arranges_reload (s : Service) (chance : Random.Stream) :
    s.Arranges (s.reload chance).1 := by
  rw [reload]
  split
  · exact .refl s
  · rename_i c _
    have hread : s.Arranges { s with catalogue := c } := s.arranges_catalogue c s.source
    dsimp only
    split
    · rename_i t ht
      exact hread.trans (arranges_rebuilt ht)
    · exact hread.trans ⟨rfl, rfl, rfl, .emptied, [], rfl, fun _ hc => by cases hc⟩

theorem arranges_selectSource (s : Service) (source : Source) (chance : Random.Stream) :
    s.Arranges (s.selectSource source chance).1 := by
  have hsave := s.arranges_saveSource source
  rw [selectSource]
  split
  · exact .refl s
  · rename_i p hpool
    split
    · rename_i t e ht
      rw [ht] at hsave
      exact hsave
    · rename_i t ht
      rw [ht] at hsave
      have hstanding : t.standing = s.standing := hsave.standing
      rw [← hstanding] at hpool
      exact (hsave.trans (arranges_made hpool)).trans (arranges_catalogue _ _ source)

theorem arranges_afterEdit (s : Service) (id : String) (chance : Random.Stream) :
    s.Arranges (s.afterEdit id chance).1 := by
  rw [afterEdit]
  split
  · split
    · exact .refl s
    · rename_i t ht
      exact (arranges_rebuilt ht).trans t.arranges_saveLists
  · exact s.arranges_saveLists

theorem arranges_editList {α : Type} (s : Service) (l : UserList) (answer : α)
    (chance : Random.Stream) : s.Arranges (s.editList l answer chance).1 :=
  (s.arranges_catalogue (s.catalogue.upsert l) s.source).trans (arranges_afterEdit _ l.id chance)

theorem arranges_upsertList (s : Service) (l : UserList) (chance : Random.Stream) :
    s.Arranges (s.upsertList l chance).1 := by
  rw [upsertList]
  split
  · exact .refl s
  · exact s.arranges_editList l _ chance

theorem arranges_addEntry (s : Service) (id entry : String) (chance : Random.Stream) :
    s.Arranges (s.addEntry id entry chance).1 := by
  rw [addEntry]
  split
  · exact .refl s
  · split
    · exact .refl s
    · exact .refl s
    · exact s.arranges_editList _ true chance

theorem arranges_removeEntry (s : Service) (id : String) (a : Address) (chance : Random.Stream) :
    s.Arranges (s.removeEntry id a chance).1 := by
  rw [removeEntry]
  split
  · exact .refl s
  · split
    · exact s.arranges_editList _ true chance
    · exact .refl s

theorem arranges_removeList (s : Service) (id : String) (chance : Random.Stream) :
    s.Arranges (s.removeList id chance).1 := by
  have hremove : ∀ source, s.Arranges
      { s with catalogue := s.catalogue.remove id, source := source } :=
    s.arranges_catalogue (s.catalogue.remove id)
  rw [removeList]
  split
  · exact .refl s
  · dsimp only
    split
    · split
      · exact hremove .builtin
      · rename_i t ht
        have hsaved := ((hremove .builtin).trans (arranges_rebuilt ht)).trans t.arranges_saveLists
        split
        · rename_i u e hu
          rw [hu] at hsaved
          exact hsaved
        · rename_i u hu
          rw [hu] at hsaved
          exact hsaved.trans (u.arranges_saveSource .builtin)
    · exact (hremove s.source).trans (arranges_saveLists _)

end

/-- Whoever asks for it neither reports an outcome nor has to do with a race. -/
def Operation.arranges : Operation → Bool
  | .reload _ | .selectSource .. | .upsertList .. | .removeList .. | .addEntry .. | .removeEntry ..
  | .preview .. => true
  | .notify .. | .start _ | .cancel | .acknowledge | .advance _ | .wait => false

theorem arranges_serve (probe : Probe) (s : Service) {o : Operation} (h : o.arranges = true) :
    s.Arranges (s.serve probe o) := by
  cases o with
  | reload chance => exact s.arranges_reload chance
  | selectSource source chance => exact s.arranges_selectSource source chance
  | upsertList l chance => exact s.arranges_upsertList l chance
  | removeList id chance => exact s.arranges_removeList id chance
  | addEntry id entry chance => exact s.arranges_addEntry id entry chance
  | removeEntry id a chance => exact s.arranges_removeEntry id a chance
  | preview => exact .refl s
  | notify | start | cancel | acknowledge | advance | wait => cases h

/-! ## New services -/

/-- A service is made if the settings pass their check and all that is stored can be read. It then
remembers what is stored, has not raced, and its pool is ordered by what it remembers. -/
theorem create_cases {settings : Settings} {store : Store} {chance : Random.Stream} {s : Service}
    (h : create settings store chance = .ok s) :
    settings.validate = .ok () ∧ s.session = .idle ∧ s.store = store ∧
      Standing.load store = .ok s.standing ∧
      (storedLists store).map (·.getD settings.lists) = .ok s.catalogue.lists ∧
      makePool s.catalogue s.standing s.source chance = .ok s.pool := by
  simp only [create, withStoredLists, Tracked.opened, bind, Except.bind, pure, Except.pure] at h
  split at h
  · cases h
  · rename_i hvalid
    split at h
    · cases h
    · rename_i catalogue hcatalogue
      split at h
      · cases h
      · rename_i tracked htracked
        split at h
        · cases h
        · split at h
          · cases h
          · rename_i hpool
            cases h
            obtain ⟨stored, hstored, rfl⟩ := map_eq_ok hcatalogue
            obtain ⟨standing, hload, rfl⟩ := map_eq_ok htracked
            refine ⟨hvalid, rfl, rfl, hload, ?_, hpool⟩
            rw [hstored]
            cases stored with
            | none => exact congrArg Except.ok (lists_catalogue settings store.disk).symm
            | some lists => rfl

end Service
end ResolverRace
