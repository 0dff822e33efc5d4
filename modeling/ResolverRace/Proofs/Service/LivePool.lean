import ResolverRace.Proofs.Service.Arranged

/-!
# The live pool of a service

Whatever is asked of a service, whether or not its store takes what is written and whoever else
writes to that store, the live pool belongs to the selected source: it permutes what loading the
source gives, or is empty if the source is gone.

* `Service.Reachable` — the states a service can come to.
* `Service.Live` — the invariant, and `Live.serve`.
* `Service.Repools` — what all edits of lists and choices of a source have in common, with one lemma
  for each of them.
* `livePool_of_reachable` — what follows for every state.
-/

namespace ResolverRace

namespace Catalogue

theorem find?_replaceFirst (l : UserList) (id : String) (lists : List UserList) :
    (replaceFirst l lists).find? (·.id = id) =
      if id = l.id then (lists.find? (·.id = id)).map fun _ => l
      else lists.find? (·.id = id) := by
  induction lists with
  | nil => simp [replaceFirst]
  | cons m ms ih =>
    rw [replaceFirst]
    by_cases hm : m.id = l.id
    · by_cases hid : id = l.id
      · simp [hm, hid]
      · simp [hm, hid, Ne.symm hid]
    · by_cases hid : id = l.id
      · rw [if_pos hid] at ih ⊢
        subst hid
        simp [hm, ih]
      · rw [if_neg hid] at ih ⊢
        simp [hm, ih, List.find?_cons]

/-- After an edit the edited list is found, and every other one is found as before. -/
theorem find?_upsert (c : Catalogue) (l : UserList) (id : String) :
    (c.upsert l).find? id = if id = l.id then some l else c.find? id := by
  rw [upsert]
  split
  · rename_i hin
    show (replaceFirst l c.lists).find? (·.id = id) = _
    rw [find?_replaceFirst]
    split
    · rename_i hid
      rw [hid]
      obtain ⟨m, hm⟩ := Option.isSome_iff_exists.1 hin
      have hm' : c.lists.find? (·.id = l.id) = some m := hm
      rw [hm']
      rfl
    · rfl
  · rename_i hout
    have hnone : c.lists.find? (·.id = l.id) = none := Option.not_isSome_iff_eq_none.1 hout
    show (c.lists ++ [l]).find? (·.id = id) = _
    rw [List.find?_append]
    by_cases hid : id = l.id
    · rw [if_pos hid, hid, hnone]
      simp
    · rw [if_neg hid]
      simp [Ne.symm hid, find?]

theorem find?_remove {c : Catalogue} {id removed : String} (h : id ≠ removed) :
    (c.remove removed).find? id = c.find? id := by
  show (c.lists.eraseP (·.id = removed)).find? (·.id = id) = c.lists.find? (·.id = id)
  induction c.lists with
  | nil => rfl
  | cons m ms ih =>
    rw [List.eraseP_cons]
    by_cases hm : m.id = removed
    · simp [hm, h.symm]
    · simp [hm, ih, List.find?_cons]

theorem entries?_upsert_self (c : Catalogue) (l : UserList) :
    (c.upsert l).entries? (.custom l.id) = some l.resolvers := by
  simp [entries?, find?_upsert]

theorem entries?_upsert {c : Catalogue} {l : UserList} {source : Source}
    (h : source ≠ .custom l.id) : (c.upsert l).entries? source = c.entries? source := by
  cases source with
  | builtin =>
    rw [upsert]
    split <;> rfl
  | custom id =>
    have hid : id ≠ l.id := fun he => h (by rw [he])
    simp only [entries?, find?_upsert, if_neg hid]

theorem shuffles_upsert (c : Catalogue) (l : UserList) : (c.upsert l).shuffles = c.shuffles := by
  rw [upsert]
  split <;> rfl

theorem entries?_remove {c : Catalogue} {id : String} {source : Source}
    (h : source ≠ .custom id) : (c.remove id).entries? source = c.entries? source := by
  cases source with
  | builtin => rfl
  | custom other =>
    have hother : other ≠ id := fun he => h (by rw [he])
    simp only [entries?, find?_remove hother]

end Catalogue

namespace Service

/-- The states a service can come to. Between two operations the store may become any other one:
somebody else has written to it, or it fails from now on. -/
inductive Reachable : Service → Prop where
  | create {settings : Settings} {store : Store} {chance : Random.Stream} {s : Service} :
      create settings store chance = .ok s → Reachable s
  | serve {s : Service} (probe : Probe) (operation : Operation) :
      Reachable s → Reachable (s.serve probe operation)
  | elsewhere {s : Service} (store : Store) : Reachable s → Reachable { s with store := store }

/-- The live pool belongs to the selected source. -/
structure Live (s : Service) : Prop where
  filled : ∀ entries, s.catalogue.entries? s.source = some entries →
    s.pool.candidates.Perm (Pool.ofEntries entries s.source.origin).pool.candidates
  emptied : s.catalogue.entries? s.source = none → s.pool = .empty

theorem makePool_ok {c : Catalogue} {source : Source} {entries : List String}
    (h : c.entries? source = some entries) (standing : Standing) (chance : Random.Stream) :
    ∃ pool, makePool c standing source chance = .ok pool ∧
      pool.candidates.Perm (Pool.ofEntries entries source.origin).pool.candidates := by
  obtain ⟨loaded, rest, hload, hperm⟩ := Catalogue.load_perm h chance
  exact ⟨standing.apply loaded.pool, by rw [makePool, hload],
    (standing.apply_perm loaded.pool).trans hperm⟩

theorem makePool_eq_error {c : Catalogue} {source : Source} (h : c.entries? source = none)
    (standing : Standing) (chance : Random.Stream) :
    ∃ e, makePool c standing source chance = .error e := by
  obtain ⟨cause, hload⟩ := Catalogue.load_eq_error h chance
  exact ⟨.pool cause, by rw [makePool, hload]⟩

/-- A pool that was made is ordered from one in which no address comes twice, and with another
memory it would be ordered from the same one. -/
theorem makePool_cases {c : Catalogue} {t : Standing} {source : Source} {chance : Random.Stream}
    {p : Pool} (h : makePool c t source chance = .ok p) :
    ∃ q : Pool, q.addresses.Nodup ∧ p = t.apply q ∧
      ∀ t', makePool c t' source chance = .ok (t'.apply q) := by
  cases hentries : c.entries? source with
  | none =>
    obtain ⟨e, he⟩ := makePool_eq_error hentries t chance
    rw [h] at he
    cases he
  | some entries =>
    obtain ⟨loaded, rest, hload, hperm⟩ := Catalogue.load_perm hentries chance
    have hmade : ∀ t', makePool c t' source chance = .ok (t'.apply loaded.pool) := fun t' => by
      rw [makePool, hload]
    refine ⟨loaded.pool, ((Pool.clean_ofEntries entries source.origin).perm hperm).nodup, ?_, hmade⟩
    exact Except.ok.inj (h.symm.trans (hmade t))

section

variable {s s' : Service}

theorem live_of_makePool {chance : Random.Stream}
    (h : makePool s.catalogue s.standing s.source chance = .ok s.pool) : s.Live := by
  refine ⟨?_, ?_⟩
  · intro entries hentries
    obtain ⟨pool, hpool, hperm⟩ := makePool_ok hentries s.standing chance
    rw [h] at hpool
    cases hpool
    exact hperm
  · intro hnone
    obtain ⟨e, he⟩ := makePool_eq_error hnone s.standing chance
    rw [h] at he
    cases he

/-- What leaves the entries of the source as they are and only reorders the pool. -/
theorem Live.frame (h : s.Live) (hsource : s'.source = s.source)
    (hentries : s'.catalogue.entries? s.source = s.catalogue.entries? s.source)
    (hpool : s'.pool.candidates.Perm s.pool.candidates) : s'.Live := by
  refine ⟨?_, ?_⟩
  · intro entries hin
    rw [hsource, hentries] at hin
    rw [hsource]
    exact hpool.trans (h.filled entries hin)
  · intro hnone
    rw [hsource, hentries] at hnone
    have hempty : s.pool = .empty := h.emptied hnone
    rw [hempty] at hpool
    have hnil : s'.pool.candidates = [] := hpool.eq_nil
    exact congrArg Pool.mk hnil

/-! ## New services -/

theorem live_of_create {settings : Settings} {store : Store} {chance : Random.Stream}
    (h : create settings store chance = .ok s) : s.Live := by
  obtain ⟨_, _, _, _, _, hpool⟩ := create_cases h
  exact live_of_makePool hpool

/-! ## Lists and sources -/

/-- What arranging lists and sources can do to the live pool: the source keeps its entries and its
pool, or a pool is made of the source that is selected now, or the source is gone and with it the
pool. -/
inductive Repools (s s' : Service) : Prop where
  | kept : s'.source = s.source →
      s'.catalogue.entries? s.source = s.catalogue.entries? s.source →
      s'.catalogue.shuffles = s.catalogue.shuffles → s'.standing = s.standing →
      s'.pool = s.pool → Repools s s'
  | made {chance : Random.Stream} :
      makePool s'.catalogue s'.standing s'.source chance = .ok s'.pool → Repools s s'
  | gone : s'.catalogue.entries? s'.source = none → s'.pool = .empty → Repools s s'

theorem Repools.refl (s : Service) : s.Repools s := .kept rfl rfl rfl rfl rfl

theorem Repools.live (hr : s.Repools s') (h : s.Live) : s'.Live := by
  cases hr with
  | kept hsource hentries _ _ hpool => exact h.frame hsource hentries (hpool ▸ .refl _)
  | made hpool => exact live_of_makePool hpool
  | gone hnone hpool =>
    refine ⟨fun entries hin => ?_, fun _ => hpool⟩
    rw [hnone] at hin
    cases hin

/-- Storing changes neither the lists nor the source nor the pool. -/
theorem Repools.put (hr : s.Repools s') (key value : String) : s.Repools (s'.put key value).1 := by
  cases hr with
  | kept hsource hentries hshuffles hstanding hpool =>
    exact .kept hsource hentries hshuffles hstanding hpool
  | made hpool => exact .made hpool
  | gone hnone hpool => exact .gone hnone hpool

theorem rebuilt_ok {entries : List String} (h : s.catalogue.entries? s.source = some entries)
    (chance : Random.Stream) : ∃ pool, s.rebuilt chance = .ok { s with pool := pool } ∧
      makePool s.catalogue s.standing s.source chance = .ok pool := by
  obtain ⟨pool, hpool, _⟩ := makePool_ok h s.standing chance
  exact ⟨pool, by rw [rebuilt, hpool]; rfl, hpool⟩

theorem repools_reload (s : Service) (chance : Random.Stream) :
    s.Repools (s.reload chance).1 := by
  rw [Service.reload]
  split
  · exact .refl s
  · rename_i catalogue _
    let t : Service := { s with catalogue := catalogue }
    cases hentries : t.catalogue.entries? t.source with
    | some entries =>
      obtain ⟨pool, hrebuilt, hpool⟩ := rebuilt_ok hentries chance
      simp only [t] at hrebuilt
      simp only [hrebuilt]
      exact .made hpool
    | none =>
      obtain ⟨e, he⟩ := makePool_eq_error hentries t.standing chance
      have hrebuilt : t.rebuilt chance = .error e := by rw [rebuilt, he]; rfl
      simp only [t] at hrebuilt
      simp only [hrebuilt]
      exact .gone hentries rfl

theorem repools_selectSource (s : Service) (source : Source) (chance : Random.Stream) :
    s.Repools (s.selectSource source chance).1 := by
  have hput : s.Repools (s.saveSource source).1 := (Repools.refl s).put Store.sourceKey source.text
  rw [Service.selectSource]
  split
  · exact .refl s
  · rename_i pool hpool
    split
    · rename_i t e hsave
      rw [hsave] at hput
      exact hput
    · rename_i t hsave
      have ht : t = (s.saveSource source).1 := (congrArg Prod.fst hsave).symm
      subst ht
      exact .made hpool

/-- What an edit does before the lists are stored: the pool is made anew if the list is selected,
which cannot fail. -/
theorem afterEdit_eq (s : Service) (l : UserList) (chance : Random.Stream) :
    ∃ pool, (s.source ≠ .custom l.id → pool = s.pool) ∧
      s.Repools { s with catalogue := s.catalogue.upsert l, pool := pool } ∧
      ({ s with catalogue := s.catalogue.upsert l } : Service).afterEdit l.id chance =
        ({ s with catalogue := s.catalogue.upsert l, pool := pool } : Service).saveLists := by
  let t : Service := { s with catalogue := s.catalogue.upsert l }
  by_cases hsource : s.source = .custom l.id
  · have hentries : t.catalogue.entries? t.source = some l.resolvers := by
      show (s.catalogue.upsert l).entries? s.source = some l.resolvers
      rw [hsource]
      exact s.catalogue.entries?_upsert_self l
    obtain ⟨pool, hrebuilt, hpool⟩ := rebuilt_ok hentries chance
    refine ⟨pool, fun hother => absurd hsource hother, .made hpool, ?_⟩
    rw [afterEdit, if_pos hsource, hrebuilt]
  · refine ⟨s.pool, fun _ => rfl, ?_, ?_⟩
    · exact .kept rfl (Catalogue.entries?_upsert hsource) (s.catalogue.shuffles_upsert l) rfl rfl
    · rw [afterEdit, if_neg hsource]

theorem repools_editList {α : Type} (s : Service) (l : UserList) (answer : α)
    (chance : Random.Stream) : s.Repools (s.editList l answer chance).1 := by
  obtain ⟨pool, _, hrepools, hafter⟩ := s.afterEdit_eq l chance
  rw [Service.editList, hafter]
  exact hrepools.put _ _

theorem repools_upsertList (s : Service) (l : UserList) (chance : Random.Stream) :
    s.Repools (s.upsertList l chance).1 := by
  rw [Service.upsertList]
  split
  · exact .refl s
  · exact s.repools_editList l _ chance

theorem repools_addEntry (s : Service) (id entry : String) (chance : Random.Stream) :
    s.Repools (s.addEntry id entry chance).1 := by
  rw [Service.addEntry]
  split
  · exact .refl s
  · split
    · exact .refl s
    · exact .refl s
    · exact s.repools_editList _ _ chance

theorem repools_removeEntry (s : Service) (id : String) (a : Address) (chance : Random.Stream) :
    s.Repools (s.removeEntry id a chance).1 := by
  rw [Service.removeEntry]
  split
  · exact .refl s
  · split
    · exact s.repools_editList _ _ chance
    · exact .refl s

/-- How a list that is there is deleted. The lists without it are stored. If it was selected then
the built-in list is, which can always be loaded, and is stored after the lists. -/
inductive Deletion (s : Service) (id : String) (removed : UserList) :
    Service × Except Error UserList → Prop where
  | other {t : Service} : s.source ≠ .custom id →
      t = { s with catalogue := s.catalogue.remove id } →
      Deletion s id removed (t.saveLists.1, t.saveLists.2.map fun () => removed)
  | unsaved {t : Service} {pool : Pool} {chance : Random.Stream} {e : Error} :
      s.source = .custom id → makePool t.catalogue t.standing t.source chance = .ok pool →
      t = { s with catalogue := s.catalogue.remove id, source := .builtin, pool := pool } →
      t.saveLists.2 = .error e → Deletion s id removed (t.saveLists.1, .error e)
  | deposed {t : Service} {pool : Pool} {chance : Random.Stream} :
      s.source = .custom id → makePool t.catalogue t.standing t.source chance = .ok pool →
      t = { s with catalogue := s.catalogue.remove id, source := .builtin, pool := pool } →
      t.saveLists.2 = .ok () → Deletion s id removed
        ((t.saveLists.1.saveSource .builtin).1,
          (t.saveLists.1.saveSource .builtin).2.map fun () => removed)

theorem deletion_removeList {id : String} {removed : UserList}
    (hfound : s.catalogue.find? id = some removed) (chance : Random.Stream) :
    s.Deletion id removed (s.removeList id chance) := by
  simp only [removeList, hfound]
  split
  · rename_i hsource
    let t : Service := { s with catalogue := s.catalogue.remove id, source := .builtin }
    have hentries : t.catalogue.entries? t.source = some s.catalogue.builtin := rfl
    obtain ⟨pool, hrebuilt, hpool⟩ := rebuilt_ok hentries chance
    let made : Service := { t with pool := pool }
    simp only [t] at hrebuilt
    simp only [hrebuilt]
    split
    · rename_i u e hsave
      have hunsaved : s.Deletion id removed (made.saveLists.1, .error e) :=
        .unsaved hsource hpool rfl (congrArg Prod.snd hsave)
      rw [show made.saveLists = (u, .error e) from hsave] at hunsaved
      exact hunsaved
    · rename_i u hsave
      have hdeposed : s.Deletion id removed ((made.saveLists.1.saveSource .builtin).1,
          (made.saveLists.1.saveSource .builtin).2.map fun () => removed) :=
        .deposed hsource hpool rfl (congrArg Prod.snd hsave)
      rw [show made.saveLists = (u, .ok ()) from hsave] at hdeposed
      exact hdeposed
  · rename_i hsource
    exact .other hsource rfl

theorem repools_removeList (s : Service) (id : String) (chance : Random.Stream) :
    s.Repools (s.removeList id chance).1 := by
  cases hfound : s.catalogue.find? id with
  | none =>
    simp only [removeList, hfound]
    exact .refl s
  | some removed =>
    have hdeletion := deletion_removeList hfound chance
    generalize s.removeList id chance = r at hdeletion ⊢
    cases hdeletion with
    | other hsource ht =>
      subst ht
      have hremoved : s.Repools { s with catalogue := s.catalogue.remove id } :=
        .kept rfl (Catalogue.entries?_remove hsource) rfl rfl rfl
      exact hremoved.put _ _
    | unsaved _ hpool ht _ =>
      have hmade : s.Repools _ := .made (hpool.trans (by rw [ht]))
      exact hmade.put _ _
    | deposed _ hpool ht _ =>
      have hmade : s.Repools _ := .made (hpool.trans (by rw [ht]))
      exact (hmade.put _ _).put _ _

theorem repools_serve (probe : Probe) (s : Service) {o : Operation} (h : o.arranges = true) :
    s.Repools (s.serve probe o) := by
  cases o with
  | reload chance => exact s.repools_reload chance
  | selectSource source chance => exact s.repools_selectSource source chance
  | upsertList l chance => exact s.repools_upsertList l chance
  | removeList id chance => exact s.repools_removeList id chance
  | addEntry id entry chance => exact s.repools_addEntry id entry chance
  | removeEntry id a chance => exact s.repools_removeEntry id a chance
  | preview => exact .refl s
  | notify | start | cancel | acknowledge | advance | wait => cases h

/-! ## Outcomes and races -/

theorem Live.notify (h : s.Live) (a : Address) (worked : Bool) : (s.notify a worked).1.Live := by
  rw [Service.notify]
  split
  · exact h.frame rfl rfl (.refl _)
  · exact h.frame rfl rfl (Pool.demote_perm s.pool a)

theorem favoured_perm (s : Service) : s.favoured.candidates.Perm s.pool.candidates := by
  rw [favoured]
  split
  · exact Pool.promote_perm _ _
  · exact .refl _

theorem Live.start (h : s.Live) (probe : Probe) (params : Params) :
    (s.start probe params).1.Live := by
  rw [Service.start]
  dsimp only
  split
  · exact h.frame rfl rfl s.favoured_perm
  · exact h.frame rfl rfl s.favoured_perm

theorem Live.serve (h : s.Live) (probe : Probe) (operation : Operation) :
    (s.serve probe operation).Live := by
  cases harranges : operation.arranges with
  | true => exact (repools_serve probe s harranges).live h
  | false =>
    cases operation with
    | reload | selectSource | upsertList | removeList | addEntry | removeEntry | preview =>
      cases harranges
    | notify a worked => exact h.notify a worked
    | start params => exact h.start probe params
    | cancel => exact h.frame rfl rfl (.refl _)
    | acknowledge => exact h.frame rfl rfl (.refl _)
    | advance => exact h.frame rfl rfl (.refl _)
    | wait => exact h.frame rfl rfl (.refl _)

end

theorem Reachable.live {s : Service} (h : Reachable s) : s.Live := by
  induction h with
  | create hs => exact live_of_create hs
  | serve probe operation _ ih => exact ih.serve probe operation
  | elsewhere _ _ ih => exact ih.frame rfl rfl (.refl _)

theorem Live.nodup {s : Service} (h : s.Live) : s.pool.addresses.Nodup := by
  cases hentries : s.catalogue.entries? s.source with
  | some entries =>
    exact ((Pool.clean_ofEntries entries s.source.origin).perm (h.filled entries hentries)).nodup
  | none =>
    rw [h.emptied hentries]
    exact List.nodup_nil

/-- What the live pool can be relied on for. -/
structure LivePool (s : Service) : Prop where
  nodup : s.catalogue.resolves s.source = true → s.pool.addresses.Nodup
  origins : s.catalogue.resolves s.source = true →
    ∀ c ∈ s.pool.candidates, c.origin = s.source.origin
  /-- Whatever the random words, loading the source gives the same candidates. -/
  loads : s.catalogue.resolves s.source = true → ∀ chance, ∃ loaded rest,
    s.catalogue.load s.source chance = .ok (loaded, rest) ∧
      s.pool.candidates.Perm loaded.pool.candidates
  gone : s.catalogue.resolves s.source = false → s.pool = .empty
  /-- The pool can be made anew after every edit of the selected list. -/
  edited : ∀ l chance, s.source = .custom l.id →
    ∃ t, ({ s with catalogue := s.catalogue.upsert l } : Service).rebuilt chance = .ok t
  /-- The pool can be made anew after the selected list was deleted. -/
  deleted : ∀ id chance, s.source = .custom id →
    ∃ t, ({ s with catalogue := s.catalogue.remove id, source := .builtin } : Service).rebuilt
      chance = .ok t

theorem livePool_of_reachable {s : Service} (h : Reachable s) : s.LivePool := by
  have hlive : s.Live := h.live
  have hentries : s.catalogue.resolves s.source = true →
      ∃ entries, s.catalogue.entries? s.source = some entries := by
    intro hresolves
    rw [← Catalogue.isSome_entries?] at hresolves
    exact Option.isSome_iff_exists.1 hresolves
  have hclean : s.catalogue.resolves s.source = true → s.pool.Clean s.source.origin := by
    intro hresolves
    obtain ⟨entries, hin⟩ := hentries hresolves
    exact (Pool.clean_ofEntries entries s.source.origin).perm (hlive.filled entries hin)
  refine ⟨fun hr => (hclean hr).nodup, fun hr => (hclean hr).origins, ?_, ?_, ?_, ?_⟩
  · intro hr chance
    obtain ⟨entries, hin⟩ := hentries hr
    obtain ⟨loaded, rest, hload, hperm⟩ := Catalogue.load_perm hin chance
    exact ⟨loaded, rest, hload, (hlive.filled entries hin).trans hperm.symm⟩
  · intro hr
    rw [← Catalogue.isSome_entries?] at hr
    exact hlive.emptied (Option.not_isSome_iff_eq_none.1 (by simp [hr]))
  · intro l chance hsource
    let t : Service := { s with catalogue := s.catalogue.upsert l }
    have hin : t.catalogue.entries? t.source = some l.resolvers := by
      show (s.catalogue.upsert l).entries? s.source = some l.resolvers
      rw [hsource]
      exact s.catalogue.entries?_upsert_self l
    obtain ⟨pool, hrebuilt, _⟩ := rebuilt_ok hin chance
    exact ⟨_, hrebuilt⟩
  · intro id chance _
    let t : Service := { s with catalogue := s.catalogue.remove id, source := .builtin }
    have hin : t.catalogue.entries? t.source = some s.catalogue.builtin := rfl
    obtain ⟨pool, hrebuilt, _⟩ := rebuilt_ok hin chance
    exact ⟨_, hrebuilt⟩

/-- An edit of the selected list that cannot be stored reaches the live pool all the same. -/
theorem livePool_after_refused_edit :
    let settings : Settings := { Settings.default with
      selection := { Selection.default with source := .custom "home" }
      lists := [⟨"home", "Home", ["one", "one:53"]⟩] }
    let store : Store := { Store.inMemory .empty .empty with refusals := [⟨.put, none⟩] }
    let chance : Random.Stream := ⟨fun _ => 0, 0⟩
    ∃ s, create settings store chance = .ok s ∧
      (s.upsertList ⟨"home", "Home", ["two", "two:53"]⟩ chance).2 =
        .error (.store (.refused .put Store.listsKey)) ∧
      (s.upsertList ⟨"home", "Home", ["two", "two:53"]⟩ chance).1.LivePool ∧
      (s.upsertList ⟨"home", "Home", ["two", "two:53"]⟩ chance).1.pool.addresses =
        [⟨.name "two", 53⟩] := by
  intro settings store chance
  obtain ⟨s, hs⟩ : ∃ s, create settings store chance = .ok s := ⟨_, rfl⟩
  refine ⟨s, hs, ?_, livePool_of_reachable
    (.serve (fun _ _ _ => ⟨none, .failure ""⟩) (.upsertList _ chance) (.create hs)), ?_⟩
  · cases hs
    rfl
  · cases hs
    rfl

end Service
end ResolverRace
