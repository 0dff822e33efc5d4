import ResolverRace.Proofs.Pool.Loading
import ResolverRace.Proofs.Service.LivePool
import ResolverRace.Proofs.Service.Recalled
import ResolverRace.Proofs.Session.Winner

/-!
# A restart is not noticed

As long as no access to its store fails, a service can be stopped after any operation: a new one
made from the same settings and the same contents of the store has the same lists, the same source
and the same memory of outcomes.

* `Service.Durable` — the invariant, and one lemma for each operation that it is kept.
* `restart_resumes` — what a new service has.
-/

namespace ResolverRace

theorem UserList.id_of_add {l m : UserList} {entry : String} {added : Bool}
    (h : l.add entry = .ok (m, added)) : m.id = l.id := by
  rw [add] at h
  split at h
  · cases h
  · split at h <;> · cases h; rfl

namespace Catalogue

theorem mem_replaceFirst {l m : UserList} {lists : List UserList}
    (hm : m ∈ replaceFirst l lists) : m ∈ lists ∨ m = l := by
  induction lists with
  | nil => cases hm
  | cons k ks ih =>
    rw [replaceFirst] at hm
    split at hm
    · rcases List.mem_cons.1 hm with hm | hm
      · exact .inr hm
      · exact .inl (List.mem_cons_of_mem _ hm)
    · rcases List.mem_cons.1 hm with rfl | hm
      · exact .inl (List.mem_cons_self ..)
      · exact (ih hm).imp_left (List.mem_cons_of_mem _)

theorem mem_upsert {c : Catalogue} {l m : UserList} (hm : m ∈ (c.upsert l).lists) :
    m ∈ c.lists ∨ m = l := by
  rw [upsert] at hm
  split at hm
  · exact mem_replaceFirst hm
  · exact (List.mem_append.1 hm).imp_right List.mem_singleton.1

theorem resolves_upsert {c : Catalogue} {source : Source} (h : c.resolves source = true)
    (l : UserList) : (c.upsert l).resolves source = true := by
  cases source with
  | builtin => rfl
  | custom id =>
    simp only [resolves, find?_upsert]
    split
    · rfl
    · exact h

theorem resolves_remove {c : Catalogue} {source : Source} {id : String}
    (h : c.resolves source = true) (hid : source ≠ .custom id) :
    (c.remove id).resolves source = true := by
  rw [← isSome_entries?, entries?_remove hid, isSome_entries?]
  exact h

end Catalogue

namespace Settings

theorem ne_empty_of_validateIds {seen ids : List String} (h : validateIds seen ids = .ok ()) :
    ∀ id ∈ ids, id ≠ "" := by
  induction ids generalizing seen with
  | nil =>
    intro id hid
    cases hid
  | cons id ids ih =>
    rw [validateIds] at h
    split at h
    · cases h
    · rename_i hne
      split at h
      · cases h
      · intro other hother
        rcases List.mem_cons.1 hother with rfl | hother
        · exact hne
        · exact ih h other hother

/-- In settings that pass the check no id is empty, and the source can be loaded. -/
theorem validate_ok {settings : Settings} (h : settings.validate = .ok ()) :
    (∀ l ∈ settings.lists, l.id ≠ "") ∧
      ∀ c : Catalogue, c.lists = settings.lists → c.resolves settings.selection.source = true := by
  rw [validate] at h
  split at h
  · cases h
  · split at h
    · cases h
    · rename_i hids
      refine ⟨fun l hl => ne_empty_of_validateIds hids _ (List.mem_map_of_mem hl), ?_⟩
      intro c hc
      split at h
      · rename_i hsource
        rw [hsource]
        rfl
      · rename_i id hsource
        split at h
        · rename_i hin
          obtain ⟨l, hl, hid⟩ := List.mem_map.1 hin
          rw [hsource]
          simp only [Catalogue.resolves, Catalogue.find?, hc, List.find?_isSome]
          exact ⟨l, hl, by simpa using hid⟩
        · cases h

end Settings

namespace Service

/-- The addresses that are reported were read from a text, and no blanks stand around the id of a
list that is selected. Other ids are never read from a text that holds more than them. -/
def Operation.Tidy : Operation → Prop
  | .selectSource source _ => ∀ id, source = .custom id → Text.trimChars id.toList = id.toList
  | .notify a _ => ∃ text, Address.parse text = .ok a
  | _ => True

/-- The store stands for what the service has, and will do so. -/
structure Durable (settings : Settings) (s : Service) : Prop where
  live : s.Live
  recalled : Recalled settings s.store s.catalogue.lists s.source s.standing
  resolves : s.catalogue.resolves s.source = true
  named : ∀ l ∈ s.catalogue.lists, l.id ≠ ""
  /-- Every winner to come can be stored. -/
  session : s.session.Only (·.address.Proper)

section

variable {settings : Settings} {s : Service}

theorem Live.proper (h : s.Live) : ∀ c ∈ s.pool.candidates, c.address.Proper := by
  intro c hc
  cases hentries : s.catalogue.entries? s.source with
  | some entries =>
    have hin := (h.filled entries hentries).subset hc
    exact Pool.proper_ofEntries (List.mem_map_of_mem hin)
  | none =>
    rw [h.emptied hentries] at hc
    cases hc

theorem Durable.entries (h : s.Durable settings) :
    ∃ entries, s.catalogue.entries? s.source = some entries := by
  have hresolves := h.resolves
  rw [← Catalogue.isSome_entries?] at hresolves
  exact Option.isSome_iff_exists.1 hresolves

/-! ## Where pools come from -/

theorem Durable.reload (h : s.Durable settings) (chance : Random.Stream) :
    (s.reload chance).1.Durable settings := by
  obtain ⟨entries, hentries⟩ := h.entries
  obtain ⟨pool, hrebuilt, hpool⟩ := rebuilt_ok hentries chance
  have hlive : ({ s with pool := pool } : Service).Live := live_of_makePool hpool
  have hreload : s.reload chance = ({ s with pool := pool }, .ok pool.size) := by
    rw [Service.reload, h.recalled.withStoredLists]
    simp only [hrebuilt]
  rw [hreload]
  exact ⟨hlive, h.recalled, h.resolves, h.named, h.session⟩

theorem resolves_of_makePool {c : Catalogue} {standing : Standing} {source : Source}
    {chance : Random.Stream} {pool : Pool} (h : makePool c standing source chance = .ok pool) :
    c.resolves source = true := by
  rw [← Catalogue.isSome_entries?]
  cases hentries : c.entries? source with
  | some entries => rfl
  | none =>
    obtain ⟨e, he⟩ := makePool_eq_error hentries standing chance
    rw [h] at he
    cases he

/-- A list that can be selected has an id that is read back. -/
theorem Durable.isId (h : s.Durable settings) {source : Source}
    (hresolves : s.catalogue.resolves source = true)
    (htrimmed : ∀ id, source = .custom id → Text.trimChars id.toList = id.toList) :
    ∀ id, source = .custom id → Source.IsId id := by
  rintro id rfl
  obtain ⟨l, hl⟩ := Option.isSome_iff_exists.1 hresolves
  have hne : l.id ≠ "" := h.named l (List.mem_of_find?_eq_some hl)
  rw [Catalogue.find?_id hl] at hne
  exact ⟨fun hnil => hne (String.toList_eq_nil_iff.1 hnil), htrimmed id rfl⟩

theorem saveSource_ok {t : Service} {source : Source}
    (h : Recalled settings t.store t.catalogue.lists source t.standing) (source' : Source)
    (hid : ∀ id, source' = .custom id → Source.IsId id) :
    ∃ store', t.saveSource source' = ({ t with store := store' }, .ok ()) ∧
      Recalled settings store' t.catalogue.lists source' t.standing := by
  obtain ⟨store', hput, hrecalled⟩ := h.putSource hid
  exact ⟨store', by rw [saveSource, put, hput], hrecalled⟩

theorem Durable.selectSource (h : s.Durable settings) {source : Source}
    (htrimmed : ∀ id, source = .custom id → Text.trimChars id.toList = id.toList)
    (chance : Random.Stream) : (s.selectSource source chance).1.Durable settings := by
  have hlive := (s.repools_selectSource source chance).live h.live
  rw [Service.selectSource] at hlive ⊢
  split at hlive
  · exact h
  · rename_i pool hpool
    have hresolves := resolves_of_makePool hpool
    obtain ⟨store', hsave, hrecalled⟩ := saveSource_ok h.recalled source (h.isId hresolves htrimmed)
    simp only [hsave] at hlive ⊢
    exact ⟨hlive, hrecalled, hresolves, h.named, h.session⟩

/-! ## Edits of lists -/

theorem saveLists_ok {t : Service} {lists : List UserList} {source : Source}
    (h : Recalled settings t.store lists source t.standing) :
    ∃ store', t.saveLists = ({ t with store := store' }, .ok ()) ∧
      Recalled settings store' t.catalogue.lists source t.standing := by
  obtain ⟨store', hput, hrecalled⟩ := h.putLists t.catalogue.lists
  exact ⟨store', by rw [saveLists, put, hput], hrecalled⟩

theorem Durable.editList {α : Type} {l : UserList} (h : s.Durable settings) (hl : l.id ≠ "")
    (answer : α) (chance : Random.Stream) : (s.editList l answer chance).1.Durable settings := by
  obtain ⟨pool, _, hrepools, hafter⟩ := s.afterEdit_eq l chance
  let t : Service := { s with catalogue := s.catalogue.upsert l, pool := pool }
  obtain ⟨store', hsave, hrecalled⟩ := saveLists_ok (t := t) h.recalled
  have hlive' : ({ t with store := store' } : Service).Live :=
    (hrepools.live h.live).frame rfl rfl (.refl _)
  rw [Service.editList, hafter, hsave]
  refine ⟨hlive', hrecalled, Catalogue.resolves_upsert h.resolves l, ?_, h.session⟩
  intro m hm
  rcases Catalogue.mem_upsert hm with hm | rfl
  · exact h.named m hm
  · exact hl

theorem Durable.upsertList (h : s.Durable settings) (l : UserList) (chance : Random.Stream) :
    (s.upsertList l chance).1.Durable settings := by
  rw [Service.upsertList]
  split
  · exact h
  · rename_i hblank
    refine h.editList (fun hid => hblank ?_) _ chance
    rw [hid]
    rfl

theorem Durable.addEntry (h : s.Durable settings) (id entry : String) (chance : Random.Stream) :
    (s.addEntry id entry chance).1.Durable settings := by
  rw [Service.addEntry]
  split
  · exact h
  · rename_i l hl
    split
    · exact h
    · exact h
    · rename_i m hadd
      refine h.editList ?_ _ chance
      rw [UserList.id_of_add hadd]
      exact h.named l (List.mem_of_find?_eq_some hl)

theorem Durable.removeEntry (h : s.Durable settings) (id : String) (a : Address)
    (chance : Random.Stream) : (s.removeEntry id a chance).1.Durable settings := by
  rw [Service.removeEntry]
  split
  · exact h
  · rename_i l hl
    split
    · exact h.editList (l := l.remove a) (h.named l (List.mem_of_find?_eq_some hl)) _ chance
    · exact h

theorem Durable.removeList (h : s.Durable settings) (id : String) (chance : Random.Stream) :
    (s.removeList id chance).1.Durable settings := by
  have hlive := (s.repools_removeList id chance).live h.live
  have hnamed : ∀ l ∈ (s.catalogue.remove id).lists, l.id ≠ "" := by
    intro l hl
    exact h.named l (List.mem_of_mem_eraseP hl)
  cases hfound : s.catalogue.find? id with
  | none =>
    simp only [Service.removeList, hfound]
    exact h
  | some removed =>
    have hdeletion := deletion_removeList hfound chance
    generalize s.removeList id chance = r at hdeletion hlive ⊢
    cases hdeletion with
    | @other t hsource ht =>
      subst ht
      obtain ⟨store', hlists, hrecalled⟩ :=
        saveLists_ok (t := { s with catalogue := s.catalogue.remove id }) h.recalled
      rw [hlists] at hlive ⊢
      exact ⟨hlive, hrecalled, Catalogue.resolves_remove h.resolves hsource, hnamed, h.session⟩
    | @unsaved t pool _ e _ _ ht hsave =>
      subst ht
      obtain ⟨store', hlists, _⟩ := saveLists_ok (t := { s with
        catalogue := s.catalogue.remove id, source := .builtin, pool := pool }) h.recalled
      rw [hlists] at hsave
      cases hsave
    | @deposed t pool _ _ _ ht _ =>
      subst ht
      obtain ⟨store₁, hlists, hrecalled₁⟩ := saveLists_ok (t := { s with
        catalogue := s.catalogue.remove id, source := .builtin, pool := pool }) h.recalled
      rw [hlists] at hlive ⊢
      obtain ⟨store₂, hsave, hrecalled₂⟩ := saveSource_ok (t := { s with
          catalogue := s.catalogue.remove id, source := .builtin, pool := pool, store := store₁ })
        hrecalled₁ .builtin fun _ hid => by cases hid
      rw [hsave] at hlive ⊢
      exact ⟨hlive, hrecalled₂, rfl, hnamed, h.session⟩

/-! ## Outcomes and races -/

theorem Durable.notify {a : Address} (h : s.Durable settings) (ha : a.Proper) (worked : Bool) :
    (s.notify a worked).1.Durable settings := by
  have hlive := h.live.notify a worked
  rw [Service.notify] at hlive ⊢
  split at hlive
  · rename_i hworked
    rw [if_pos hworked]
    obtain ⟨store', hrecord, hrecalled⟩ := h.recalled.recordSuccess ha
    simp only [Tracked.recordSuccess, hrecord] at hlive ⊢
    exact ⟨hlive, hrecalled, h.resolves, h.named, h.session⟩
  · rename_i hworked
    rw [if_neg hworked]
    obtain ⟨store', hrecord, hrecalled⟩ := h.recalled.recordFailure ha
    simp only [Tracked.recordFailureIn, Tracked.recordFailure, hrecord] at hlive ⊢
    exact ⟨hlive, hrecalled, h.resolves, h.named, h.session⟩

theorem Durable.start (h : s.Durable settings) (probe : Probe) (params : Params) :
    (s.start probe params).1.Durable settings := by
  have hlive := h.live.start probe params
  have hproper : ∀ c ∈ s.favoured.candidates, c.address.Proper :=
    fun c hc => h.live.proper c (s.favoured_perm.subset hc)
  rw [Service.start] at hlive ⊢
  dsimp only at hlive ⊢
  split at hlive
  · rename_i session hstart
    exact ⟨hlive, h.recalled, h.resolves, h.named, h.session.start hproper hstart⟩
  · exact ⟨hlive, h.recalled, h.resolves, h.named, h.session⟩

/-- After time has passed a winner may have been recorded. -/
theorem Durable.settle {session : Session} {news : News} (h : s.Durable settings)
    (hsession : session.Only (·.address.Proper)) (hnews : news.Only (·.address.Proper)) :
    ({ s with toTracked := s.toTracked.settle session news } : Service).Durable settings := by
  have hlive : ({ s with toTracked := s.toTracked.settle session news } : Service).Live :=
    h.live.frame rfl rfl (.refl _)
  rw [Tracked.settle, Tracked.recordWinner] at hlive ⊢
  split at hlive
  · rename_i winner hwinner
    obtain ⟨store', hrecord, hrecalled⟩ := h.recalled.recordSuccess (hnews winner hwinner)
    simp only [Tracked.recordSuccess, hrecord] at hlive ⊢
    exact ⟨hlive, hrecalled, h.resolves, h.named, hsession⟩
  · exact ⟨hlive, h.recalled, h.resolves, h.named, hsession⟩

theorem Durable.serve (h : s.Durable settings) (probe : Probe) {operation : Operation}
    (ho : operation.Tidy) : (s.serve probe operation).Durable settings := by
  cases operation with
  | reload chance => exact h.reload chance
  | selectSource source chance => exact h.selectSource ho chance
  | upsertList l chance => exact h.upsertList l chance
  | removeList id chance => exact h.removeList id chance
  | addEntry id entry chance => exact h.addEntry id entry chance
  | removeEntry id a chance => exact h.removeEntry id a chance
  | preview => exact h
  | notify a worked =>
    obtain ⟨text, hread⟩ := ho
    exact h.notify (Address.parse_proper hread) worked
  | start params => exact h.start probe params
  | cancel =>
    exact ⟨h.live.serve probe .cancel, h.recalled, h.resolves, h.named, h.session.cancel⟩
  | acknowledge =>
    exact ⟨h.live.serve probe .acknowledge, h.recalled, h.resolves, h.named, h.session.acknowledge⟩
  | advance span => exact h.settle (h.session.advance span).1 (h.session.advance span).2
  | wait => exact h.settle h.session.wait.1 h.session.wait.2

theorem Durable.serveAll (probe : Probe) {operations : List Operation} (h : s.Durable settings)
    (ho : ∀ o ∈ operations, o.Tidy) : (s.serveAll probe operations).Durable settings := by
  induction operations generalizing s with
  | nil => exact h
  | cons o rest ih =>
    exact ih (h.serve probe (ho o (List.mem_cons_self ..)))
      fun o' ho' => ho o' (List.mem_cons_of_mem _ ho')

/-! ## Restarts -/

/-- A service made from an empty store has what the settings say, and can go on from there. -/
theorem durable_of_create {store : Store} (hvalid : settings.validate = .ok ())
    (hempty : ∀ key, store.get key = .ok none) (hreliable : store.Reliable)
    (chance : Random.Stream) :
    ∃ s, create settings store chance = .ok s ∧ s.Durable settings := by
  obtain ⟨hnamed, hresolves⟩ := Settings.validate_ok hvalid
  have hvalues : ∀ key, store.values.get? key = none := by
    intro key
    have hget := hempty key
    rw [hreliable.get] at hget
    exact Except.ok.inj hget
  have hrecalled : Recalled settings store settings.lists settings.selection.source .empty := by
    refine ⟨hreliable, ?_, ?_, ⟨?_, ?_⟩⟩
    · rw [storedLists, hempty]
      rfl
    · rw [storedSource, hempty]
      rfl
    · rw [hvalues]
      rfl
    · rw [hvalues]
      rfl
  obtain ⟨s, hs, hlists, hsource, hstanding, hstore, hsession⟩ :=
    hrecalled.create hvalid (lists_catalogue settings store.disk)
      (hresolves _ (lists_catalogue settings store.disk)) (fun _ => rfl) chance
  refine ⟨s, hs, live_of_create hs, ?_, ?_, ?_, ?_⟩
  · rw [hstore, hlists, hsource, hstanding]
    exact hrecalled
  · rw [hsource]
    exact hresolves s.catalogue hlists
  · rw [hlists]
    exact hnamed
  · rw [hsession]
    exact Session.idle_only

end

/-- What a service has is what another one had. -/
structure Resumes (s' s : Service) : Prop where
  lists : s'.catalogue.lists = s.catalogue.lists
  source : s'.source = s.source
  last : s'.standing.last = s.standing.last
  demoted : s'.standing.demoted = s.standing.demoted

/-- After any operations, also while a race is under way, a new service made from the same settings
and the same contents of the store has what the service has. -/
theorem restart_resumes (probe : Probe) {settings : Settings} {store : Store}
    (hvalid : settings.validate = .ok ()) (hempty : ∀ key, store.get key = .ok none)
    (hreliable : store.Reliable) (chance : Random.Stream) :
    ∃ s, create settings store chance = .ok s ∧
      ∀ operations : List Operation, (∀ o ∈ operations, o.Tidy) →
        ∀ (store' : Store) (chance' : Random.Stream),
          (∀ key, store'.get key = (s.serveAll probe operations).store.get key) →
          ∃ s', create settings store' chance' = .ok s' ∧
            s'.Resumes (s.serveAll probe operations) := by
  obtain ⟨s, hs, hdurable⟩ := durable_of_create hvalid hempty hreliable chance
  refine ⟨s, hs, fun operations ho store' chance' hsame => ?_⟩
  have hlater : (s.serveAll probe operations).Durable settings := hdurable.serveAll probe ho
  obtain ⟨s', hs', hlists, hsource, hstanding, _, _⟩ :=
    hlater.recalled.create hvalid rfl hlater.resolves hsame chance'
  exact ⟨s', hs', hlists, hsource, congrArg Standing.last hstanding,
    congrArg Standing.demoted hstanding⟩

/-- A race in a selected list is won and the winner fails afterwards; a restart keeps the choice and
the failure. -/
theorem restart_after_failed_winner :
    let settings : Settings := { Settings.default with
      lists := [⟨"home", "Home", ["one", "two"]⟩] }
    let store : Store := .inMemory .empty .empty
    let chance : Random.Stream := ⟨fun _ => 0, 0⟩
    let winner : Address := ⟨.name "two", 53⟩
    let probe : Probe := fun a _ _ =>
      ⟨some 0, if a = winner then .success 0 else .failure "refused"⟩
    let operations : List Operation :=
      [.selectSource (.custom "home") chance, .upsertList ⟨"work", "Work", ["three"]⟩ chance,
        .start .default, .wait, .notify winner false]
    ∃ s s', create settings store chance = .ok s ∧
      create settings (s.serveAll probe operations).store chance = .ok s' ∧
      s'.Resumes (s.serveAll probe operations) ∧
      (s.serveAll probe operations).source = .custom "home" ∧
      (s.serveAll probe operations).standing = ⟨none, [winner]⟩ := by
  intro settings store chance winner probe operations
  have htidy : ∀ o ∈ operations, o.Tidy := by
    intro o ho
    simp only [operations, List.mem_cons, List.not_mem_nil, or_false] at ho
    rcases ho with rfl | rfl | rfl | rfl | rfl
    · rintro id hid
      cases hid
      decide
    · trivial
    · trivial
    · trivial
    · exact ⟨"two", rfl⟩
  have hvalid : settings.validate = .ok () := rfl
  have hreliable : store.Reliable := Store.inMemory_reliable .empty .empty
  obtain ⟨s, hs, hresumes⟩ := restart_resumes probe hvalid (fun _ => rfl) hreliable chance
  obtain ⟨s', hs', hsame⟩ := hresumes operations htidy _ chance fun _ => rfl
  have hrun : (create settings store chance).toOption.map (fun s =>
      ((s.serveAll probe operations).source, (s.serveAll probe operations).standing)) =
        some (.custom "home", ⟨none, [winner]⟩) := by
    simp only [settings, store, chance, operations, probe, winner]
    decide +kernel
  rw [hs] at hrun
  have hpair := Option.some.inj hrun
  exact ⟨s, s', hs, hs', hsame, congrArg Prod.fst hpair, congrArg Prod.snd hpair⟩

end Service
end ResolverRace
