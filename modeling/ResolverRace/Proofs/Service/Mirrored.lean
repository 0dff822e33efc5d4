import ResolverRace.Proofs.Service.Acknowledged
import ResolverRace.Proofs.Session.Filed

/-!
# Services whose stores take every change

If every change of its store takes place, whatever is answered, the store always stands for the
lists of a service, and a new service can be made from it at any time. A file store is one of these:
its values change before its file does. What the file holds is another matter; it is up to date
after an edit or a report that was answered without an error.

* `Service.Mirrored` — the store stands for the lists and takes what comes; `Mirrored.serve`.
* `Mirrored.create_again` — what a new service has.
* `Service.OnFile` — the services on a file store whose file may not be written at times, and which
  others may write; `OnFile.mirrored`, `OnFile.inFile`.
* `upToDate_edited`, `upToDate_notify` — when the file has been written.
-/

namespace ResolverRace
namespace Service

/-- The store stands for the lists, all of it can be read, and every change of it takes place. -/
structure Mirrored (settings : Settings) (s : Service) : Prop where
  valid : settings.validate = .ok ()
  live : s.Live
  legible : Legible s.store
  takes : s.store.Takes
  lists : s.Matches settings

section

variable {settings : Settings} {s : Service} {store : Store} {chance : Random.Stream}
  {probe : Probe} {o : Operation}

theorem mirrored_of_create (hs : store.Readable) (ht : store.Takes)
    (h : create settings store chance = .ok s) : s.Mirrored settings := by
  obtain ⟨hvalid, _, hstore, hload, hlists, _⟩ := create_cases h
  obtain ⟨stored, hstored, _⟩ := map_eq_ok hlists
  refine ⟨hvalid, live_of_create h, ?_, hstore ▸ ht, ?_⟩
  · rw [hstore]
    exact legible_of_read hs hstored hload
  · rw [Matches, hstore]
    exact hlists

/-- Others may keep the store from writing its file, or write the file. -/
theorem Mirrored.meanwhile (h : s.Mirrored settings) (hs : store.Readable) (ht : store.Takes)
    (hbacking : store.backing = s.store.backing) :
    ({ s with store := store } : Service).Mirrored settings := by
  refine ⟨h.valid, h.live.frame rfl rfl (.refl _), h.legible.meanwhile hs hbacking, ht, ?_⟩
  rw [Matches, storedLists_of_get (h.legible.readable.get_of_backing hs hbacking _)]
  exact h.lists

/-- Whatever is answered, the lists are served once they were put. -/
theorem matches_saved (hs : s.store.Readable) (ht : s.store.Takes) :
    s.saveLists.1.Matches settings :=
  matches_of_put hs (ht.value (.put Store.listsKey _))

theorem Mirrored.matches_serve (h : s.Mirrored settings) (probe : Probe) (o : Operation) :
    (s.serve probe o).Matches settings := by
  have hs : s.store.Readable := h.legible.readable
  cases ho : s.edited? o with
  | none => exact h.lists.serve hs ho
  | some answer =>
    have hedit : s.Edit o answer (s.serve probe o) := edit_serve ho
    generalize s.serve probe o = s' at hedit ⊢
    cases hedit with
    | nothing _ => exact h.lists
    | saved hstore _ => exact matches_saved (hstore ▸ hs) (hstore ▸ h.takes)
    | unsaved _ hstore _ => exact matches_saved (hstore ▸ hs) (hstore ▸ h.takes)
    | @deposed t _ hstore _ =>
      have hreadable : t.saveLists.1.store.Readable :=
        (hstore ▸ hs : t.store.Readable).change (.put Store.listsKey _)
      exact (matches_saved (hstore ▸ hs) (hstore ▸ h.takes)).saveSource hreadable .builtin

theorem Mirrored.serve (h : s.Mirrored settings) (probe : Probe) (o : Operation) :
    (s.serve probe o).Mirrored settings := by
  refine ⟨h.valid, h.live.serve probe o, h.legible.serve probe o, ?_, h.matches_serve probe o⟩
  obtain ⟨changes, hstore, _⟩ := serve_changes probe s o
  rw [hstore]
  exact h.takes.changeAll changes

theorem Mirrored.serveAll (h : s.Mirrored settings) (probe : Probe)
    (operations : List Operation) : (s.serveAll probe operations).Mirrored settings := by
  induction operations generalizing s with
  | nil => exact h
  | cons o operations ih => exact ih (h.serve probe o)

/-! ## New services -/

/-- Which source is chosen depends on the lists alone. -/
theorem chooseSource_congr {c c' : Catalogue} (h : c'.lists = c.lists) (stored : Option Source)
    (configured : Source) : chooseSource c' stored configured = chooseSource c stored configured := by
  have hresolves : c'.resolves = c.resolves := funext (Catalogue.resolves_congr h)
  rw [chooseSource, chooseSource, hresolves]

/-- The source that the text in the store stands for, if it stands for one. -/
def recalledSource? (s : Service) : Option Source :=
  (s.store.values.get? Store.sourceKey).bind fun text => (Source.parse text).toOption

theorem source_of_create (h : create settings store chance = .ok s) :
    ∃ stored, storedSource store = .ok stored ∧
      s.source = chooseSource s.catalogue stored settings.selection.source := by
  simp only [create, bind, Except.bind, pure, Except.pure] at h
  split at h
  · cases h
  · split at h
    · cases h
    · split at h
      · cases h
      · split at h
        · cases h
        · rename_i stored hstored
          split at h
          · cases h
          · cases h
            exact ⟨stored, hstored, rfl⟩

/-- From what can be read in the store a service is made, with the same lists and with the source that
the text in the store stands for. -/
theorem Mirrored.create_again (h : s.Mirrored settings)
    (hsame : ∀ key, store.get key = s.store.get key) (chance : Random.Stream) :
    ∃ s', create settings store chance = .ok s' ∧ s'.catalogue.lists = s.catalogue.lists ∧
      s'.source = chooseSource s.catalogue s.recalledSource? settings.selection.source := by
  obtain ⟨s', hs', hlists⟩ := h.lists.kept h.legible h.valid store chance hsame
  obtain ⟨stored, hstored, hsource⟩ := source_of_create hs'
  have hrecalled : storedSource store = .ok s.recalledSource? := by
    rw [storedSource, hsame, h.legible.readable.get]
    rfl
  obtain rfl := Except.ok.inj (hstored.symm.trans hrecalled)
  exact ⟨s', hs', hlists, hsource.trans (chooseSource_congr hlists _ _)⟩

end

/-! ## Services on a file store -/

/-- The service was made from the store of the file at this path. Any write of the file may fail, for
reasons that the disk shows or for others, and others may write the disk. -/
inductive OnFile (settings : Settings) (path : String) : Service → Prop where
  | create {disk : Disk} {file : FileStore} {refusals : List Refusal} {chance : Random.Stream}
      {s : Service} : FileStore.opened disk path = .ok file → (∀ r ∈ refusals, r.access = .flush) →
      create settings ⟨.file file, refusals, disk⟩ chance = .ok s → OnFile settings path s
  | serve {s : Service} (probe : Probe) (o : Operation) : OnFile settings path s →
      OnFile settings path (s.serve probe o)
  | meanwhile {s : Service} (refusals : List Refusal) (disk : Disk) : OnFile settings path s →
      (∀ r ∈ refusals, r.access = .flush) →
      OnFile settings path { s with store := { s.store with refusals := refusals, disk := disk } }

section

variable {settings : Settings} {path : String} {s : Service} {probe : Probe} {o : Operation}

theorem OnFile.store (h : OnFile settings path s) : s.store.InFile path ∧ s.store.Willing := by
  induction h with
  | create hfile hrefusals hs =>
    rw [(create_cases hs).2.2.1]
    exact ⟨Store.inFile_of_opened hfile _ _, hrefusals⟩
  | @serve s probe o _ ih =>
    obtain ⟨changes, hstore, _⟩ := serve_changes probe s o
    rw [hstore]
    exact ⟨ih.1.changeAll changes, ih.2.changeAll changes⟩
  | meanwhile _ _ _ hrefusals ih => exact ⟨ih.1.of_backing rfl, hrefusals⟩

theorem OnFile.inFile (h : OnFile settings path s) : s.store.InFile path := h.store.1

theorem OnFile.willing (h : OnFile settings path s) : s.store.Willing := h.store.2

theorem OnFile.mirrored (h : OnFile settings path s) : s.Mirrored settings := by
  induction h with
  | @create disk file refusals chance s hfile hrefusals hs =>
    have hwilling : (⟨.file file, refusals, disk⟩ : Store).Willing := hrefusals
    exact mirrored_of_create hwilling.readable
      (hwilling.takes (Store.inFile_of_opened hfile refusals disk)) hs
  | serve probe o _ ih => exact ih.serve probe o
  | @meanwhile s refusals disk hs hrefusals ih =>
    have hnow : OnFile settings path _ := .meanwhile refusals disk hs hrefusals
    exact ih.meanwhile hnow.willing.readable (hnow.willing.takes hnow.inFile) rfl

/-! ## When the file has been written -/

theorem upToDate_edited (h : s.store.InFile path)
    (ho : s.edited? o = some (.ok true)) : (s.serve probe o).store.UpToDate := by
  have hedit : s.Edit o (.ok true) (s.serve probe o) := edit_serve ho
  generalize hanswer : (.ok true : Except Error Bool) = answer, s.serve probe o = s' at hedit ⊢
  cases hedit with
  | nothing hno => exact absurd hanswer.symm hno
  | saved hstore _ =>
    obtain ⟨_, hsaved, _⟩ := map_eq_ok hanswer.symm
    exact Store.upToDate_put (hstore ▸ h) hsaved
  | unsaved => cases hanswer
  | @deposed t _ hstore _ =>
    obtain ⟨_, hchosen, _⟩ := map_eq_ok hanswer.symm
    have hin : t.saveLists.1.store.InFile path :=
      (hstore ▸ h : t.store.InFile path).change (.put Store.listsKey _)
    exact Store.upToDate_put hin hchosen

theorem upToDate_notify {a : Address} {worked : Bool} (h : s.store.InFile path)
    (hok : (s.notify a worked).2 = .ok ()) : (s.notify a worked).1.store.UpToDate := by
  cases worked with
  | true => exact Standing.recordSuccess_upToDate h hok
  | false => exact Standing.recordFailure_upToDate h hok

/-! ## Switches of the source -/

/-- A source that is selected is loaded, then the choice is stored, then it is made. -/
theorem selectSource_cases (s : Service) (source : Source) (chance : Random.Stream) :
    (s.catalogue.resolves source = false ∧ ∃ e, s.selectSource source chance = (s, .error e)) ∨
      s.catalogue.resolves source = true ∧
        ((∃ e, (s.saveSource source).2 = .error e ∧
            s.selectSource source chance = ((s.saveSource source).1, .error e)) ∨
          ∃ pool, (s.saveSource source).2 = .ok () ∧ s.selectSource source chance =
            ({ (s.saveSource source).1 with source := source, pool := pool }, .ok pool.size)) := by
  cases hentries : s.catalogue.entries? source with
  | none =>
    obtain ⟨e, he⟩ := makePool_eq_error hentries s.standing chance
    refine .inl ⟨?_, e, by rw [selectSource, he]⟩
    rw [← Catalogue.isSome_entries?, hentries]
    rfl
  | some entries =>
    obtain ⟨pool, hpool, _⟩ := makePool_ok hentries s.standing chance
    have hresolves : s.catalogue.resolves source = true := by
      rw [← Catalogue.isSome_entries?, hentries]
      rfl
    refine .inr ⟨hresolves, ?_⟩
    rw [selectSource, hpool]
    dsimp only
    split
    · rename_i t e ht
      exact .inl ⟨e, by rw [ht], by rw [ht]⟩
    · rename_i t ht
      exact .inr ⟨pool, by rw [ht], by rw [ht]⟩

end

end Service
end ResolverRace
