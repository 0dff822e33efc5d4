import ResolverRace.Proofs.Service.Agreement
import ResolverRace.Proofs.Service.Mirrored
import ResolverRace.Proofs.Service.Restart

/-!
# What operations leave alone

An edit names one list. It replaces that list where it stands, adds it at the end or takes it out,
and the other lists stay in their order. If the list is not selected, nothing else of the service
changes, and nothing else in the store. What is asked for and cannot be done, since there is no such
list or a text is wrong, changes nothing at all.

* `Catalogue.Placed`, `Catalogue.Edited` — one list among the others, before and after an edit.
* `Service.Apart` — services that differ in their lists alone.
* `Service.Amends`, `amends_serve` — how an edit goes.
* `Blameless`, `serve_of_refused` — what fails at the store has not been asked for in vain.
* `spares_serve` — what every operation leaves alone.
-/

namespace ResolverRace

/-- What was asked for cannot be done: there is no such list, or a text is wrong. -/
def Error.blamesCall : Error → Bool
  | .settings _ | .document _ | .pool _ => true
  | _ => false

/-- If something has failed, then not because of what was asked for. -/
def Blameless {α : Type} (result : Except Error α) : Prop :=
  ∀ e, result = .error e → e.blamesCall = false

namespace Catalogue

/-- The list takes the place of the first one of its id, or the last place if there is none. -/
inductive Placed (l : UserList) : List UserList → List UserList → Prop where
  | replaced {before after : List UserList} {m : UserList} : (∀ k ∈ before, k.id ≠ l.id) →
      m.id = l.id → Placed l (before ++ m :: after) (before ++ l :: after)
  | added {lists : List UserList} : (∀ k ∈ lists, k.id ≠ l.id) → Placed l lists (lists ++ [l])

/-- Of all lists, at most the first one of the id is replaced or taken out, or one is added; the
others stay as they are, in their order. -/
inductive Edited (id : String) (lists : List UserList) : List UserList → Prop where
  | kept : Edited id lists lists
  | placed {l : UserList} {lists' : List UserList} : l.id = id → Placed l lists lists' →
      Edited id lists lists'
  | removed {before after : List UserList} {m : UserList} : (∀ k ∈ before, k.id ≠ id) →
      m.id = id → lists = before ++ m :: after → Edited id lists (before ++ after)

section

variable {lists lists' : List UserList} {l m : UserList} {id : String}

/-- What comes in front of the first list of an id. -/
theorem split_of_find? (h : lists.find? (·.id = id) = some m) :
    m.id = id ∧ ∃ before after, lists = before ++ m :: after ∧ ∀ k ∈ before, k.id ≠ id := by
  obtain ⟨hm, before, after, hsplit, hbefore⟩ := List.find?_eq_some_iff_append.1 h
  exact ⟨of_decide_eq_true hm, before, after, hsplit, fun k hk => by simpa using hbefore k hk⟩

theorem replaceFirst_append {before : List UserList} (hbefore : ∀ k ∈ before, k.id ≠ l.id)
    (hm : m.id = l.id) (after : List UserList) :
    replaceFirst l (before ++ m :: after) = before ++ l :: after := by
  induction before with
  | nil => exact if_pos hm
  | cons k before ih =>
    have hk : k.id ≠ l.id := hbefore k (List.mem_cons_self ..)
    rw [List.cons_append, replaceFirst, if_neg hk,
      ih fun k' hk' => hbefore k' (List.mem_cons_of_mem _ hk')]
    rfl

theorem placed_upsert (c : Catalogue) (l : UserList) : Placed l c.lists (c.upsert l).lists := by
  cases hfound : c.find? l.id with
  | some m =>
    obtain ⟨hm, before, after, hsplit, hbefore⟩ := split_of_find? hfound
    rw [upsert, hfound]
    show Placed l c.lists (replaceFirst l c.lists)
    rw [hsplit, replaceFirst_append hbefore hm]
    exact .replaced hbefore hm
  | none =>
    rw [upsert, hfound]
    exact .added fun k hk => by simpa using List.find?_eq_none.1 hfound k hk

theorem edited_remove {c : Catalogue} (h : c.find? id = some m) :
    Edited id c.lists (c.remove id).lists := by
  obtain ⟨hm, before, after, hsplit, hbefore⟩ := split_of_find? h
  have hremove : (c.remove id).lists = before ++ after := by
    show c.lists.eraseP (·.id = id) = _
    rw [hsplit, List.eraseP_append_right _ (by simpa using hbefore),
      List.eraseP_cons_of_pos (by simpa using hm)]
  rw [hremove]
  exact .removed hbefore hm hsplit

/-- Only the lists are edited. -/
theorem upsert_eq (c : Catalogue) (l : UserList) :
    c.upsert l = { c with lists := (c.upsert l).lists } := by
  rw [upsert]
  split <;> rfl

theorem Placed.nodup (h : Placed l lists lists') (hd : (lists.map (·.id)).Nodup) :
    (lists'.map (·.id)).Nodup := by
  cases h with
  | replaced _ hm =>
    rw [List.map_append, List.map_cons] at hd ⊢
    exact hm ▸ hd
  | added hnew =>
    rw [List.map_append, List.map_singleton]
    refine List.nodup_append.2 ⟨hd, List.pairwise_singleton .., fun id hid id' hid' => ?_⟩
    obtain ⟨k, hk, rfl⟩ := List.mem_map.1 hid
    rw [List.mem_singleton.1 hid']
    exact hnew k hk

/-- Lists whose ids are distinct have distinct ids after an edit. -/
theorem Edited.nodup (h : Edited id lists lists') (hd : (lists.map (·.id)).Nodup) :
    (lists'.map (·.id)).Nodup := by
  cases h with
  | kept => exact hd
  | placed _ hplaced => exact hplaced.nodup hd
  | removed _ _ hsplit =>
    rw [hsplit] at hd
    exact hd.sublist (((List.sublist_cons_self _ _).append_left _).map _)

end

end Catalogue

/-! ## What fails at the store -/

section

variable {α β : Type}

theorem Blameless.map {result : Except Error α} (h : Blameless result) (f : α → β) :
    Blameless (result.map f) := by
  intro e he
  cases result with
  | ok a => cases he
  | error e' =>
    cases he
    exact h _ rfl

theorem blameless_ok (a : α) : Blameless (.ok a : Except Error α) := fun _ he => by cases he

theorem blameless_error {e : Error} (h : e.blamesCall = false) :
    Blameless (.error e : Except Error α) := by
  intro e' he
  cases he
  exact h

end

namespace FileStore

theorem blameless_flush (disk : Disk) (path : String) (m : KeyMap) :
    Blameless (flush disk path m).2 := by
  rw [flush]
  split
  · exact blameless_error rfl
  · split
    · exact blameless_error rfl
    · split
      · exact blameless_error rfl
      · exact blameless_ok ()

end FileStore

namespace Store

theorem blameless_replace (s : Store) (file : FileStore) (m : KeyMap) (key : String) :
    Blameless (file.replace s.disk m (s.hindrance key)).2.2 := by
  simp only [FileStore.replace, hindrance]
  by_cases hrefused : s.refuses .flush key = true
  · rw [if_pos hrefused]
    exact blameless_error rfl
  · rw [if_neg hrefused]
    exact FileStore.blameless_flush s.disk file.path m

/-- A change fails at the store or at the disk. -/
theorem blameless_change (s : Store) (c : Change) : Blameless (s.change c).2 := by
  cases c with
  | put key value =>
    simp only [change, put]
    split
    · exact blameless_error rfl
    · rw [putAnyway]
      split
      · exact blameless_ok ()
      · exact s.blameless_replace _ _ key
  | remove key =>
    simp only [change, remove]
    split
    · exact blameless_error rfl
    · rw [removeAnyway]
      split
      · exact blameless_ok ()
      · simp only [FileStore.remove]
        split
        · exact s.blameless_replace _ _ key
        · exact blameless_ok ()

end Store

namespace Standing

theorem blameless_bothOk {first second : Except Error Unit} (h₁ : Blameless first)
    (h₂ : Blameless second) : Blameless (bothOk first second) := by
  cases first with
  | ok => exact h₂
  | error e => exact h₁

theorem blameless_saveDemoted (t : Standing) (s : Store) : Blameless (t.saveDemoted s).2 := by
  rw [saveDemoted_eq]
  exact s.blameless_change t.demotedChange

theorem blameless_recordSuccess (t : Standing) (s : Store) (a : Address) :
    Blameless (t.recordSuccess s a).2.2 := by
  have hput := s.blameless_change (.put Store.lastKey a.text)
  by_cases hmem : a ∈ t.demoted
  · rw [recordSuccess_of_mem hmem]
    exact blameless_bothOk hput (blameless_saveDemoted _ _)
  · rw [recordSuccess_of_not_mem hmem]
    exact hput

theorem blameless_recordFailure (t : Standing) (s : Store) (a : Address) :
    Blameless (t.recordFailure s a).2.2 := by
  rw [recordFailure_eq]
  refine blameless_bothOk ?_ (blameless_saveDemoted _ _)
  rw [cleared]
  split
  · exact s.blameless_change (.remove Store.lastKey)
  · exact blameless_ok ()

end Standing

namespace Service

/-- The list that an operation edits. -/
def Operation.listId? : Operation → Option String
  | .upsertList l _ => some l.id
  | .removeList id _ | .addEntry id _ _ | .removeEntry id _ _ => some id
  | .reload _ | .selectSource .. | .preview .. | .notify .. | .start _ | .cancel | .acknowledge
  | .advance _ | .wait => none

/-- Whether an operation fails, and with which error. -/
def result (probe : Probe) (s : Service) : Operation → Except Error Unit
  | .reload chance => (s.reload chance).2.map fun _ => ()
  | .selectSource source chance => (s.selectSource source chance).2.map fun _ => ()
  | .upsertList l chance => (s.upsertList l chance).2.map fun _ => ()
  | .removeList id chance => (s.removeList id chance).2.map fun _ => ()
  | .addEntry id entry chance => (s.addEntry id entry chance).2.map fun _ => ()
  | .removeEntry id a chance => (s.removeEntry id a chance).2.map fun _ => ()
  | .preview source chance => (s.preview source chance).map fun _ => ()
  | .notify a worked => (s.notify a worked).2
  | .start params => (s.start probe params).2
  | .cancel | .acknowledge | .advance _ | .wait => .ok ()

/-- Services that differ in their lists alone, stored lists included. -/
structure Apart (s s' : Service) : Prop where
  session : s'.session = s.session
  standing : s'.standing = s.standing
  defaults : s'.defaults = s.defaults
  catalogue : s'.catalogue = { s.catalogue with lists := s'.catalogue.lists }
  source : s'.source = s.source
  pool : s'.pool = s.pool
  store : s.store.SameOutside [Store.listsKey] s'.store

/-- How an edit goes. Nothing is done; or a list is placed among the others, or taken out, and the
lists are stored. A source that is not the list's keeps its pool. -/
inductive Amends {α : Type} (s : Service) (id : String) : Service → Except Error α → Prop where
  | kept (result : Except Error α) : Amends s id s result
  | placed {l : UserList} {pool : Pool} {result : Except Error α} : l.id = id →
      (s.source ≠ .custom id → pool = s.pool) → Blameless result → Amends s id
        ({ s with catalogue := s.catalogue.upsert l, pool := pool } : Service).saveLists.1 result
  | removed {l : UserList} {t : Service} {result : Except Error α} :
      s.catalogue.find? id = some l → t.catalogue = s.catalogue.remove id →
      (s.source ≠ .custom id →
        t = ({ s with catalogue := s.catalogue.remove id } : Service).saveLists.1) →
      Blameless result → Amends s id t result

section

variable {s s' s'' : Service} {id : String} {probe : Probe} {o : Operation}

/-! ## Edits -/

theorem blameless_saveLists (s : Service) : Blameless s.saveLists.2 :=
  s.store.blameless_change (.put Store.listsKey _)

theorem blameless_saveSource (s : Service) (source : Source) : Blameless (s.saveSource source).2 :=
  s.store.blameless_change (.put Store.sourceKey source.text)

theorem Amends.map {α β : Type} {result : Except Error α} (h : s.Amends id s' result) (f : α → β) :
    s.Amends id s' (result.map f) := by
  cases h with
  | kept => exact .kept _
  | placed hid hpool hresult => exact .placed hid hpool (hresult.map f)
  | removed hfound hlists hother hresult => exact .removed hfound hlists hother (hresult.map f)

theorem amends_editList {α : Type} (s : Service) (l : UserList) (answer : α)
    (chance : Random.Stream) :
    s.Amends l.id (s.editList l answer chance).1 (s.editList l answer chance).2 := by
  obtain ⟨pool, hpool, _, hafter⟩ := s.afterEdit_eq l chance
  rw [editList, hafter]
  exact .placed rfl hpool ((blameless_saveLists _).map _)

theorem amends_upsertList (s : Service) (l : UserList) (chance : Random.Stream) :
    s.Amends l.id (s.upsertList l chance).1 (s.upsertList l chance).2 := by
  rw [upsertList]
  split
  · exact .kept _
  · exact s.amends_editList l _ chance

theorem amends_removeList (s : Service) (id : String) (chance : Random.Stream) :
    s.Amends id (s.removeList id chance).1 (s.removeList id chance).2 := by
  cases hfound : s.catalogue.find? id with
  | none =>
    simp only [removeList, hfound]
    exact .kept _
  | some removed =>
    have hdeletion := deletion_removeList hfound chance
    generalize s.removeList id chance = r at hdeletion ⊢
    cases hdeletion with
    | other _ ht =>
      subst ht
      exact .removed hfound rfl (fun _ => rfl) ((blameless_saveLists _).map _)
    | unsaved hsource _ ht hsave =>
      subst ht
      exact .removed hfound rfl (absurd hsource) (blameless_error (blameless_saveLists _ _ hsave))
    | deposed hsource _ ht _ =>
      subst ht
      exact .removed hfound rfl (absurd hsource) ((blameless_saveSource _ .builtin).map _)

theorem amends_addEntry (s : Service) (id entry : String) (chance : Random.Stream) :
    s.Amends id (s.addEntry id entry chance).1 (s.addEntry id entry chance).2 := by
  rw [addEntry]
  split
  · exact .kept _
  · rename_i l hfound
    obtain ⟨hid, _⟩ := Catalogue.split_of_find? hfound
    split
    · exact .kept _
    · exact .kept _
    · rename_i l' hadd
      rw [← hid, ← UserList.id_of_add hadd]
      exact s.amends_editList l' true chance

theorem amends_removeEntry (s : Service) (id : String) (a : Address) (chance : Random.Stream) :
    s.Amends id (s.removeEntry id a chance).1 (s.removeEntry id a chance).2 := by
  rw [removeEntry]
  split
  · exact .kept _
  · rename_i l hfound
    obtain ⟨hid, _⟩ := Catalogue.split_of_find? hfound
    split
    · rw [← hid]
      exact s.amends_editList (l.remove a) true chance
    · exact .kept _

theorem amends_serve (probe : Probe) (h : o.listId? = some id) :
    s.Amends id (s.serve probe o) (s.result probe o) := by
  cases o with
  | upsertList l chance =>
    obtain rfl := Option.some.inj h
    exact (s.amends_upsertList l chance).map _
  | removeList =>
    obtain rfl := Option.some.inj h
    exact (s.amends_removeList ..).map _
  | addEntry =>
    obtain rfl := Option.some.inj h
    exact (s.amends_addEntry ..).map _
  | removeEntry =>
    obtain rfl := Option.some.inj h
    exact (s.amends_removeEntry ..).map _
  | reload | selectSource | preview | notify | start | cancel | acknowledge | advance | wait =>
    cases h

/-! ## One list -/

theorem Amends.edited {α : Type} {result : Except Error α} (h : s.Amends id s' result) :
    Catalogue.Edited id s.catalogue.lists s'.catalogue.lists := by
  cases h with
  | kept => exact .kept
  | placed hid => exact .placed hid (s.catalogue.placed_upsert _)
  | removed hfound hlists =>
    rw [hlists]
    exact Catalogue.edited_remove hfound

theorem Apart.refl (s : Service) : s.Apart s :=
  ⟨rfl, rfl, rfl, rfl, rfl, rfl, .refl _ s.store⟩

/-- Storing the lists changes only what is stored under their key. -/
theorem apart_saveLists (s : Service) {c : Catalogue}
    (h : c = { s.catalogue with lists := c.lists }) :
    s.Apart ({ s with catalogue := c } : Service).saveLists.1 :=
  ⟨rfl, rfl, rfl, h, rfl, rfl,
    Store.sameOutside_change (c := .put Store.listsKey _) (List.mem_singleton_self _) s.store⟩

/-- An edit of a list that is not selected. -/
theorem Amends.apart {α : Type} {result : Except Error α} (h : s.Amends id s' result)
    (hsource : s.source ≠ .custom id) : s.Apart s' := by
  cases h with
  | kept => exact .refl s
  | @placed l pool _ _ hpool _ =>
    rw [hpool hsource]
    exact s.apart_saveLists (s.catalogue.upsert_eq l)
  | removed _ _ hother _ =>
    rw [hother hsource]
    exact s.apart_saveLists rfl

/-! ## All operations -/

/-- Who neither edits a list nor reads the lists again leaves them as they are. -/
theorem lists_serve (probe : Probe) (s : Service) (h : o.listId? = none)
    (ho : ∀ chance, o ≠ .reload chance) :
    (s.serve probe o).catalogue = s.catalogue ∧
      (s.serve probe o).store.values.get? Store.listsKey =
        s.store.values.get? Store.listsKey := by
  cases harranges : o.arranges with
  | false =>
    obtain ⟨hcatalogue, changes, hstore, hall⟩ := outcome_changes probe s harranges
    refine ⟨hcatalogue, ?_⟩
    rw [hstore]
    refine s.store.values_changeAll fun c hc hkey => ?_
    have hin := (hall c hc).key_mem
    rw [hkey] at hin
    exact absurd hin (by decide)
  | true =>
    cases o with
    | selectSource source chance =>
      have hsaved : (s.saveSource source).1.store.values.get? Store.listsKey =
          s.store.values.get? Store.listsKey :=
        s.store.values_change_other (c := .put Store.sourceKey source.text)
          (show Store.sourceKey ≠ Store.listsKey by decide)
      simp only [serve]
      rcases s.selectSource_cases source chance with
        ⟨_, e, he⟩ | ⟨_, ⟨e, _, he⟩ | ⟨pool, _, he⟩⟩
      · rw [he]
        exact ⟨rfl, rfl⟩
      · rw [he]
        exact ⟨rfl, hsaved⟩
      · rw [he]
        exact ⟨rfl, hsaved⟩
    | preview => exact ⟨rfl, rfl⟩
    | reload chance => exact absurd rfl (ho chance)
    | upsertList | removeList | addEntry | removeEntry => cases h
    | notify | start | cancel | acknowledge | advance | wait => cases harranges

/-- What was asked for in vain changes nothing; anything else that fails has failed at the store, or
since a race is under way. -/
theorem serve_of_refused (probe : Probe) (s : Service) (ho : ∀ chance, o ≠ .reload chance) :
    s.serve probe o = s ∨ Blameless (s.result probe o) := by
  cases hid : o.listId? with
  | some id =>
    have hamends := s.amends_serve probe hid
    generalize s.serve probe o = s', s.result probe o = result at hamends ⊢
    cases hamends with
    | kept => exact .inl rfl
    | placed _ _ hresult => exact .inr hresult
    | removed _ _ _ hresult => exact .inr hresult
  | none =>
    cases o with
    | selectSource source chance =>
      simp only [serve, result]
      rcases s.selectSource_cases source chance with
        ⟨_, e, he⟩ | ⟨_, ⟨e, hsave, he⟩ | ⟨pool, _, he⟩⟩
      · rw [he]
        exact .inl rfl
      · rw [he]
        exact .inr ((blameless_error (s.blameless_saveSource source e hsave)).map _)
      · rw [he]
        exact .inr ((blameless_ok pool.size).map _)
    | preview => exact .inl rfl
    | notify a worked =>
      cases worked with
      | true => exact .inr (s.standing.blameless_recordSuccess s.store a)
      | false => exact .inr (s.standing.blameless_recordFailure s.store a)
    | start params =>
      refine .inr ?_
      simp only [result, start, Session.start]
      split
      · rename_i hstarted
        exact blameless_ok ()
      · rename_i e hstarted
        split at hstarted
        · cases hstarted
          exact blameless_error rfl
        · cases hstarted
    | cancel | acknowledge | advance | wait => exact .inr (blameless_ok ())
    | reload chance => exact absurd rfl (ho chance)
    | upsertList | removeList | addEntry | removeEntry => cases hid

end

/-- What an operation leaves alone. -/
structure Spares (probe : Probe) (s : Service) (o : Operation) : Prop where
  /-- An edit names one list; all others stay as they are, in their order. -/
  edited : ∀ id, o.listId? = some id →
    Catalogue.Edited id s.catalogue.lists (s.serve probe o).catalogue.lists
  /-- An edit of a list that is not selected changes nothing but the lists. -/
  apart : ∀ id, o.listId? = some id → s.source ≠ .custom id → s.Apart (s.serve probe o)
  placed : ∀ l chance, o = .upsertList l chance → (Text.trimChars l.id.toList).isEmpty = false →
    Catalogue.Placed l s.catalogue.lists (s.serve probe o).catalogue.lists
  distinct : (∀ chance, o ≠ .reload chance) → (s.catalogue.lists.map (·.id)).Nodup →
    ((s.serve probe o).catalogue.lists.map (·.id)).Nodup
  /-- Without an edit the lists stay as they are, and so do the stored ones. -/
  lists : o.listId? = none → (∀ chance, o ≠ .reload chance) →
    (s.serve probe o).catalogue = s.catalogue ∧
      (s.serve probe o).store.values.get? Store.listsKey = s.store.values.get? Store.listsKey
  previewed : ∀ source chance, o = .preview source chance → s.serve probe o = s
  /-- What was asked for in vain changes nothing. -/
  refused : ∀ e, (∀ chance, o ≠ .reload chance) → s.result probe o = .error e →
    e.blamesCall = true → s.serve probe o = s

/-- Operations touch only what they name, in whatever state the service is, and whether or not its
store takes what is written. -/
theorem spares_serve (probe : Probe) (s : Service) (o : Operation) : s.Spares probe o := by
  have hedited : ∀ id, o.listId? = some id →
      Catalogue.Edited id s.catalogue.lists (s.serve probe o).catalogue.lists :=
    fun id hid => (s.amends_serve probe hid).edited
  refine ⟨hedited, fun id hid hsource => (s.amends_serve probe hid).apart hsource, ?_, ?_,
    s.lists_serve probe, ?_, ?_⟩
  · rintro l chance rfl hid
    obtain ⟨pool, _, _, hafter⟩ := s.afterEdit_eq l chance
    simp only [serve, upsertList, hid, editList, hafter]
    exact s.catalogue.placed_upsert l
  · intro ho hd
    cases hid : o.listId? with
    | some id => exact (hedited id hid).nodup hd
    | none =>
      rw [(s.lists_serve probe hid ho).1]
      exact hd
  · rintro source chance rfl
    rfl
  · intro e ho he hblames
    rcases s.serve_of_refused probe ho with hsame | hblameless
    · exact hsame
    · rw [hblameless e he] at hblames
      cases hblames

/-- A list is replaced while another one is selected, and an entry is added to a list that is not
there. -/
theorem spares_list_not_selected :
    let home : UserList := ⟨"home", "Home", ["1.1.1.1"]⟩
    let work : UserList := ⟨"work", "Work", ["8.8.8.8"]⟩
    let lab : UserList := ⟨"lab", "Lab", []⟩
    let settings : Settings := { Settings.default with
      selection := { Selection.default with source := .custom "home" }
      lists := [home, work, lab] }
    let chance : Random.Stream := ⟨fun _ => 0, 0⟩
    let probe : Probe := fun _ _ _ => ⟨none, .failure ""⟩
    let edit : Operation := .upsertList { work with resolvers := ["9.9.9.9"] } chance
    let vain : Operation := .addEntry "school" "9.9.9.9" chance
    ∃ s, create settings (.inMemory .empty .empty) chance = .ok s ∧ s.source = .custom "home" ∧
      s.Apart (s.serve probe edit) ∧
      (s.serve probe edit).catalogue.lists = [home, { work with resolvers := ["9.9.9.9"] }, lab] ∧
      s.result probe vain = .error (.pool (.unknownList "school")) ∧ s.serve probe vain = s := by
  intro home work lab settings chance probe edit vain
  obtain ⟨s, hs⟩ : ∃ s, create settings (.inMemory .empty .empty) chance = .ok s := ⟨_, rfl⟩
  have hrun : (create settings (.inMemory .empty .empty) chance).toOption.map (fun s =>
      (s.source, (s.serve probe edit).catalogue.lists, s.result probe vain)) =
      some (.custom "home", [home, { work with resolvers := ["9.9.9.9"] }, lab],
        .error (.pool (.unknownList "school"))) := by
    decide +kernel
  rw [hs] at hrun
  have hvalues := Option.some.inj hrun
  have hsource : s.source = .custom "home" := congrArg (·.1) hvalues
  have hfailed : s.result probe vain = .error (.pool (.unknownList "school")) :=
    congrArg (·.2.2) hvalues
  refine ⟨s, hs, hsource, ?_, congrArg (·.2.1) hvalues, hfailed, ?_⟩
  · exact (spares_serve probe s edit).apart "work" rfl (by rw [hsource]; decide)
  · exact (spares_serve probe s vain).refused _ (fun _ => by simp [vain]) hfailed rfl

end Service
end ResolverRace
