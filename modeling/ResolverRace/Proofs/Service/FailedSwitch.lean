import ResolverRace.Proofs.Service.Mirrored

/-!
# What becomes of a failed switch

A switch of the source that fails leaves the source and the pool as they are. If it failed because
the choice could not be written, the values of the file store hold the choice all the same, and the
next write of the file, for whatever reason, writes it. A service that is made from the file then
has the source of the failed switch.

* `Operation.Stays` — the operations that choose no source; `stays_serve`.
* `Service.Onward` — a run without another choice, with `Onward.sameChoice`.
* `Service.Reopens` — what a service has that is made from the file.
* `failed_switch` — what a failed switch leaves, now and later.
* `failed_switch_remembered` — the source of a failed switch is found by a new service.
-/

namespace ResolverRace
namespace Service

/-- No source is selected, and the selected list is not deleted. -/
def Operation.Stays (s : Service) : Operation → Prop
  | .selectSource .. => False
  | .removeList id _ => s.source ≠ .custom id
  | _ => True

/-- From one service to a later one, without another choice of a source. Any write of the file may
fail, and others may write the disk. -/
inductive Onward (s : Service) : Service → Prop where
  | here : Onward s s
  | serve {t : Service} (probe : Probe) (o : Operation) : Onward s t → o.Stays t →
      Onward s (t.serve probe o)
  | meanwhile {t : Service} (refusals : List Refusal) (disk : Disk) : Onward s t →
      (∀ r ∈ refusals, r.access = .flush) →
      Onward s { t with store := { t.store with refusals := refusals, disk := disk } }

/-- A service that is made from the file has the same lists, and this source. -/
def Reopens (settings : Settings) (s : Service) (source : Source) : Prop :=
  ∃ store, s.store.reopened = .ok store ∧ ∀ chance, ∃ s', create settings store chance = .ok s' ∧
    s'.catalogue.lists = s.catalogue.lists ∧ s'.source = source

section

variable {settings : Settings} {path : String} {s t u : Service} {probe : Probe} {o : Operation}

/-! ## What keeps the choice -/

/-- The source is the same, and its text in the store as well. -/
structure SameChoice (s t : Service) : Prop where
  source : t.source = s.source
  text : t.store.values.get? Store.sourceKey = s.store.values.get? Store.sourceKey

theorem SameChoice.recalledSource? (h : s.SameChoice t) :
    t.recalledSource? = s.recalledSource? := by
  rw [Service.recalledSource?, Service.recalledSource?, h.text]

theorem SameChoice.trans (h : s.SameChoice t) (h' : t.SameChoice u) : s.SameChoice u :=
  ⟨h'.source.trans h.source, h'.text.trans h.text⟩

theorem sameChoice_saveLists (hstore : t.store = s.store) (hsource : t.source = s.source) :
    s.SameChoice t.saveLists.1 := by
  refine ⟨hsource, ?_⟩
  have hother : t.saveLists.1.store.values.get? Store.sourceKey =
      t.store.values.get? Store.sourceKey :=
    t.store.values_change_other (c := .put Store.listsKey _)
      (show Store.listsKey ≠ Store.sourceKey by decide)
  rw [hother, hstore]

theorem sameChoice_reload (s : Service) (chance : Random.Stream) :
    s.SameChoice (s.reload chance).1 := by
  rw [reload]
  split
  · exact ⟨rfl, rfl⟩
  · dsimp only
    split
    · rename_i hrebuilt
      obtain ⟨pool, _, rfl⟩ := map_eq_ok hrebuilt
      exact ⟨rfl, rfl⟩
    · exact ⟨rfl, rfl⟩

/-- Reports and races store outcomes only. -/
theorem sameChoice_outcome (probe : Probe) (s : Service) (h : o.arranges = false) :
    s.SameChoice (s.serve probe o) := by
  refine ⟨?_, ?_⟩
  · cases o with
    | reload | selectSource | upsertList | removeList | addEntry | removeEntry | preview => cases h
    | notify a worked => cases worked <;> rfl
    | start params =>
      simp only [Service.serve, Service.start]
      split <;> rfl
    | cancel | acknowledge | advance | wait => rfl
  · obtain ⟨_, changes, hstore, hall⟩ := outcome_changes probe s h
    rw [hstore]
    refine Store.values_changeAll s.store fun c hc hkey => ?_
    have hin := (hall c hc).key_mem
    rw [hkey] at hin
    exact absurd hin (by decide)

theorem stays_serve (ho : o.Stays s) : s.SameChoice (s.serve probe o) := by
  cases hedited : s.edited? o with
  | some answer =>
    have hedit : s.Edit o answer (s.serve probe o) := edit_serve hedited
    have hnot : ¬ o.Deposes s := by
      rintro ⟨id, chance, rfl, hsource⟩
      exact ho hsource
    generalize s.serve probe o = s' at hedit ⊢
    cases hedit with
    | nothing _ => exact ⟨rfl, rfl⟩
    | saved hstore hsource => exact sameChoice_saveLists hstore hsource
    | unsaved hdeposes => exact absurd hdeposes hnot
    | deposed hdeposes => exact absurd hdeposes hnot
  | none =>
    cases harranges : o.arranges with
    | false => exact sameChoice_outcome probe s harranges
    | true =>
      cases o with
      | reload chance => exact s.sameChoice_reload chance
      | selectSource => exact ho.elim
      | preview => exact ⟨rfl, rfl⟩
      | upsertList | removeList | addEntry | removeEntry => cases hedited
      | notify | start | cancel | acknowledge | advance | wait => cases harranges

theorem Onward.onFile (h : Onward s t) (hs : OnFile settings path s) : OnFile settings path t := by
  induction h with
  | here => exact hs
  | serve probe o _ _ ih => exact .serve probe o ih
  | meanwhile refusals disk _ hrefusals ih => exact .meanwhile refusals disk ih hrefusals

theorem Onward.sameChoice (h : Onward s t) : s.SameChoice t := by
  induction h with
  | here => exact ⟨rfl, rfl⟩
  | serve probe o _ ho ih => exact ih.trans (stays_serve ho)
  | meanwhile _ _ _ _ ih => exact ⟨ih.source, ih.text⟩

/-! ## New services -/

/-- Once the file is up to date, a service that is made from it has the source whose text the values
hold, if it can be loaded. -/
theorem OnFile.reopens (hs : OnFile settings path s) (hdate : s.store.UpToDate) :
    s.Reopens settings
      (chooseSource s.catalogue s.recalledSource? settings.selection.source) :=
  ⟨s.store, hdate, fun chance => hs.mirrored.create_again (fun _ => rfl) chance⟩

theorem recalledSource?_saveSource (hs : OnFile settings path s) (source : Source) :
    (s.saveSource source).1.recalledSource? = (Source.parse source.text).toOption := by
  have hvalue : (s.saveSource source).1.store.values.get? Store.sourceKey = some source.text :=
    (hs.willing.takes hs.inFile).value (.put Store.sourceKey source.text)
  rw [recalledSource?, hvalue]
  rfl

end

/-- A switch that fails changes nothing but the store, and not even that if the source cannot be
loaded. If it can, and nobody chooses a source later, a service made from the file has the source of
the failed switch as soon as the file is up to date, which every edit and every report brings about
that is answered without an error; until then the file may hold the old choice. -/
theorem failed_switch {settings : Settings} {path : String} {s : Service} {source : Source}
    {chance : Random.Stream} {e : Error} (hs : OnFile settings path s)
    (herror : (s.selectSource source chance).2 = .error e) :
    let s' := (s.selectSource source chance).1
    s' = { s with store := s'.store } ∧
    (s.catalogue.resolves source = false → s' = s) ∧
    (s.store.refuses .flush Store.sourceKey = true → s'.store.reopened = s.store.reopened) ∧
    (s.catalogue.resolves source = true → ∀ u, Onward s' u → u.source = s.source ∧
      (u.store.UpToDate → u.Reopens settings (chooseSource u.catalogue
        (Source.parse source.text).toOption settings.selection.source))) ∧
    ∀ u, Onward s' u → ∀ probe o,
      u.edited? o = some (.ok true) ∨
        (∃ a worked, o = .notify a worked ∧ (u.notify a worked).2 = .ok ()) →
      (u.serve probe o).store.UpToDate := by
  intro s'
  have hs' : OnFile settings path s' := .serve (fun _ _ _ => ⟨none, .failure ""⟩)
    (.selectSource source chance) hs
  have hwrites : ∀ u, Onward s' u → ∀ probe o,
      u.edited? o = some (.ok true) ∨
        (∃ a worked, o = .notify a worked ∧ (u.notify a worked).2 = .ok ()) →
      (u.serve probe o).store.UpToDate := by
    intro u hu probe o ho
    have hon : OnFile settings path u := hu.onFile hs'
    rcases ho with ho | ⟨a, worked, rfl, ho⟩
    · exact upToDate_edited hon.inFile ho
    · exact upToDate_notify hon.inFile ho
  rcases s.selectSource_cases source chance with
    ⟨hgone, e, he⟩ | ⟨hresolves, ⟨e, _, he⟩ | ⟨pool, _, hok⟩⟩
  · have hsame : s' = s := congrArg Prod.fst he
    refine ⟨by rw [hsame], fun _ => hsame, fun _ => by rw [hsame], fun hresolves => ?_, hwrites⟩
    rw [hgone] at hresolves
    cases hresolves
  · have hsaved : s' = (s.saveSource source).1 := congrArg Prod.fst he
    refine ⟨by rw [hsaved]; rfl, fun hgone => ?_, fun hrefused => ?_, fun _ u hu => ?_, hwrites⟩
    · rw [hresolves] at hgone
      cases hgone
    · rw [hsaved]
      exact Store.reopened_put hs.inFile (hs.willing.refuses (by decide) _) hrefused
    · have hchoice : s'.SameChoice u := hu.sameChoice
      refine ⟨hchoice.source.trans (by rw [hsaved]; rfl), fun hdate => ?_⟩
      have hrecalled : u.recalledSource? = (Source.parse source.text).toOption := by
        rw [hchoice.recalledSource?, hsaved]
        exact recalledSource?_saveSource hs source
      rw [← hrecalled]
      exact (hu.onFile hs').reopens hdate
  · rw [hok] at herror
    cases herror

/-- A switch fails since its choice cannot be written. An entry is added to the list that stays
selected, and the file has the failed choice. -/
theorem failed_switch_before_edit :
    let settings : Settings := { Settings.default with
      selection := { Selection.default with source := .custom "home" }
      lists := [⟨"home", "Home", ["one"]⟩, ⟨"work", "Work", ["two"]⟩] }
    let store : Store := ⟨.file ⟨"s", .empty⟩, [⟨.flush, some Store.sourceKey⟩], .empty⟩
    let chance : Random.Stream := ⟨fun _ => 0, 0⟩
    let probe : Probe := fun _ _ _ => ⟨none, .failure ""⟩
    ∃ s, create settings store chance = .ok s ∧
      let failed := s.selectSource (.custom "work") chance
      let later := failed.1.serve probe (.addEntry "home" "three" chance)
      failed.2 = .error (.store (.refused .flush Store.sourceKey)) ∧
      failed.1.store.reopened = s.store.reopened ∧ later.source = s.source ∧
      later.Reopens settings (.custom "work") := by
  intro settings store chance probe
  obtain ⟨s, hs⟩ : ∃ s, create settings store chance = .ok s := ⟨_, rfl⟩
  refine ⟨s, hs, ?_⟩
  intro failed later
  have hfile : FileStore.opened .empty "s" = .ok ⟨"s", .empty⟩ := by decide +kernel
  have hon : OnFile settings "s" s := .create hfile (by decide) hs
  have hrun : (create settings store chance).toOption.map (fun s =>
      let failed := s.selectSource (.custom "work") chance
      let later := failed.1.serve probe (.addEntry "home" "three" chance)
      (failed.2, failed.1.edited? (.addEntry "home" "three" chance),
        s.catalogue.resolves (.custom "work"),
        chooseSource later.catalogue (Source.parse (Source.custom "work").text).toOption
          settings.selection.source)) =
      some (.error (.store (.refused .flush Store.sourceKey)), some (.ok true), true,
        .custom "work") := by
    simp only [settings, store, chance, probe]
    decide +kernel
  rw [hs] at hrun
  have hanswers := Option.some.inj hrun
  have herror : failed.2 = .error (.store (.refused .flush Store.sourceKey)) :=
    congrArg (·.1) hanswers
  have hrefused : s.store.refuses .flush Store.sourceKey = true := by
    rw [(create_cases hs).2.2.1]
    decide
  have hchosen : chooseSource later.catalogue (Source.parse (Source.custom "work").text).toOption
      settings.selection.source = .custom "work" := congrArg (·.2.2.2) hanswers
  obtain ⟨_, _, hkept, honward, hwrites⟩ := failed_switch hon herror
  have hdate : later.store.UpToDate := hwrites _ .here probe _ (.inl (congrArg (·.2.1) hanswers))
  have hlater : Onward failed.1 later := .serve probe _ .here trivial
  obtain ⟨hsource, hreopens⟩ := honward (congrArg (·.2.2.1) hanswers) later hlater
  rw [hchosen] at hreopens
  exact ⟨herror, hkept hrefused, hsource.trans rfl, hreopens hdate⟩

/-- The file has the source of a service, another source is selected, and the choice cannot be
written. Once an entry has been added to the list that stays selected, a service that is made from
the file has the other source. -/
theorem failed_switch_remembered :
    let settings : Settings := { Settings.default with
      selection := { Selection.default with source := .custom "home" }
      lists := [⟨"home", "Home", ["one"]⟩, ⟨"work", "Work", ["two"]⟩] }
    let store : Store := ⟨.file ⟨"s", .empty⟩, [⟨.flush, some Store.sourceKey⟩], .empty⟩
    let chance : Random.Stream := ⟨fun _ => 0, 0⟩
    ∃ s store' s', create settings store chance = .ok s ∧ s.source = .custom "home" ∧
      s.store.reopened = .ok store ∧
      let failed := s.selectSource (.custom "work") chance
      let later := failed.1.addEntry "home" "three" chance
      failed.2 = .error (.store (.refused .flush Store.sourceKey)) ∧ later.2 = .ok true ∧
      later.1.source = .custom "home" ∧ later.1.store.reopened = .ok store' ∧
      create settings store' chance = .ok s' ∧ s'.source = .custom "work" := by
  intro settings store chance
  obtain ⟨s, hs⟩ : ∃ s, create settings store chance = .ok s := ⟨_, rfl⟩
  have hfile : FileStore.opened .empty "s" = .ok ⟨"s", .empty⟩ := by decide +kernel
  have hreopened : s.store.reopened = .ok store := by
    rw [(create_cases hs).2.2.1]
    exact (Store.upToDate_iff rfl).2 hfile
  have hrun : (create settings store chance).toOption.map (fun s =>
      let failed := s.selectSource (.custom "work") chance
      let later := failed.1.addEntry "home" "three" chance
      (failed.2, later.2, later.1.source,
        (create settings later.1.store chance).toOption.map (·.source))) =
      some (.error (.store (.refused .flush Store.sourceKey)), .ok true, .custom "home",
        some (.custom "work")) := by
    simp only [settings, store, chance]
    decide +kernel
  rw [hs] at hrun
  have hanswers := Option.some.inj hrun
  let failed := s.selectSource (.custom "work") chance
  let probe : Probe := fun _ _ _ => ⟨none, .failure ""⟩
  have hadded : (failed.1.addEntry "home" "three" chance).2 = .ok true :=
    congrArg (·.2.1) hanswers
  have hon : OnFile settings "s" failed.1 :=
    .serve probe (.selectSource (.custom "work") chance) (.create hfile (by decide) hs)
  have hdate : (failed.1.serve probe (.addEntry "home" "three" chance)).store.UpToDate :=
    upToDate_edited hon.inFile (congrArg some hadded)
  obtain ⟨s', hs', hsource⟩ := Option.map_eq_some_iff.1 (congrArg (·.2.2.2) hanswers)
  exact ⟨s, _, s', hs, by cases hs; rfl, hreopened, congrArg (·.1) hanswers, hadded,
    congrArg (·.2.2.1) hanswers, hdate, eq_ok_of_toOption hs', hsource⟩

end Service
end ResolverRace
