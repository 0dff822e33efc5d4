import ResolverRace.Proofs.Service.Mirrored
import ResolverRace.Proofs.Service.Restart

/-!
# Whether a selected list is found again

The choice of a list is stored as the text of its source, and reading that text drops the blanks
around the id. The check of the settings only wants ids that are not empty, and an edit only ids
that are not blank. So a list whose id has blanks around it can be selected, and a new service takes
its id without them for the choice.

* `parse_of_upsertList` — how the id of a list is read that an edit has accepted.
* `selected_list_recalled` — what a new service finds after a list was selected.
* `selected_list_lost` — a list that was selected is not found again.
-/

namespace ResolverRace
namespace Service

/-- The id of a list that an edit accepts is not blank. -/
theorem parse_of_upsertList {s : Service} {l : UserList} {chance : Random.Stream} {replaced : Bool}
    (h : (s.upsertList l chance).2 = .ok replaced) :
    Source.parse ("custom:" ++ l.id) = .ok (.custom (Text.trim l.id)) := by
  rw [upsertList] at h
  split at h
  · cases h
  · rename_i hid
    exact (Source.parse_custom l.id).trans (if_neg hid)

/-- The check of the settings leaves ids that are not empty, and an edit ids that are not blank.
Whatever the id is, the text of its source is read as the source of the id without blanks around it,
which is the same source exactly if there are none and the id is not empty. After a list was selected
the store holds this text, and a new service has the source that the text is read as, or else the
configured one; so it has the list if the id has no blanks around it. -/
theorem selected_list_recalled {settings : Settings} {store : Store} {chance : Random.Stream}
    {s : Service} (hstore : store.Reliable) (hs : create settings store chance = .ok s)
    (probe : Probe) (operations : List Operation) :
    let t := s.serveAll probe operations
    (∀ l ∈ settings.lists, l.id ≠ "") ∧
    (∀ l chance replaced, (t.upsertList l chance).2 = .ok replaced →
      Source.parse ("custom:" ++ l.id) = .ok (.custom (Text.trim l.id))) ∧
    (∀ id, Source.parse ("custom:" ++ id) =
        (if (Text.trimChars id.toList).isEmpty then .error (.unknownList "custom:")
          else .ok (.custom (Text.trim id))) ∧
      (Source.parse ("custom:" ++ id) = .ok (.custom id) ↔ Source.IsId id)) ∧
    ∀ id chance n, (t.selectSource (.custom id) chance).2 = .ok n →
      let u := (t.selectSource (.custom id) chance).1
      u.source = .custom id ∧ u.store.values.get? Store.sourceKey = some ("custom:" ++ id) ∧
      ∀ store' chance', (∀ key, store'.get key = u.store.get key) →
        ∃ s', create settings store' chance' = .ok s' ∧ s'.catalogue.lists = u.catalogue.lists ∧
          s'.source = chooseSource u.catalogue (Source.parse ("custom:" ++ id)).toOption
            settings.selection.source ∧
          (Source.IsId id → s'.source = .custom id) := by
  intro t
  have ht : t.Mirrored settings :=
    (mirrored_of_create hstore.readable hstore.takes hs).serveAll probe operations
  refine ⟨(Settings.validate_ok ht.valid).1, fun l chance replaced h => parse_of_upsertList h,
    fun id => ⟨Source.parse_custom id, Source.parse_custom_iff⟩, ?_⟩
  intro id chance n hok u
  have hu : u.Mirrored settings := ht.serve probe (.selectSource (.custom id) chance)
  obtain ⟨_, e, he⟩ | ⟨hresolves, ⟨e, _, he⟩ | ⟨pool, _, hswitched⟩⟩ :=
    t.selectSource_cases (.custom id) chance
  · rw [he] at hok
    cases hok
  · rw [he] at hok
    cases hok
  · have hsource : u.source = .custom id := congrArg (·.1.source) hswitched
    have hvalue : u.store.values.get? Store.sourceKey = some ("custom:" ++ id) := by
      rw [show u.store = _ from congrArg (·.1.store) hswitched]
      exact ht.takes.value (.put Store.sourceKey (Source.custom id).text)
    have hresolves' : u.catalogue.resolves (.custom id) = true := by
      rw [show u.catalogue = _ from congrArg (·.1.catalogue) hswitched]
      exact hresolves
    refine ⟨hsource, hvalue, fun store' chance' hsame => ?_⟩
    obtain ⟨s', hs', hlists, hchosen⟩ := hu.create_again hsame chance'
    rw [recalledSource?, hvalue, Option.bind_some] at hchosen
    refine ⟨s', hs', hlists, hchosen, fun hid => ?_⟩
    have hread : (Source.parse ("custom:" ++ id)).toOption = some (.custom id) :=
      congrArg Except.toOption (Source.parse_custom_iff.2 hid)
    rw [hchosen, hread]
    exact chooseSource_eq rfl hresolves'

/-- A list is created and selected, and a new service has it as its source. -/
theorem created_list_recalled :
    let settings : Settings := { Settings.default with
      selection := { Selection.default with source := .custom "home" }
      lists := [⟨"home", "Home", ["one"]⟩] }
    let store : Store := .inMemory .empty .empty
    let chance : Random.Stream := ⟨fun _ => 0, 0⟩
    let probe : Probe := fun _ _ _ => ⟨none, .failure ""⟩
    let operations : List Operation := [.upsertList ⟨"work", "Work", ["two"]⟩ chance]
    ∃ s s', create settings store chance = .ok s ∧
      let selected := (s.serveAll probe operations).selectSource (.custom "work") chance
      selected.2 = .ok 1 ∧ create settings selected.1.store chance = .ok s' ∧
      s'.source = .custom "work" := by
  intro settings store chance probe operations
  obtain ⟨s, hs⟩ : ∃ s, create settings store chance = .ok s := ⟨_, rfl⟩
  have hrun : (create settings store chance).toOption.map (fun s =>
      ((s.serveAll probe operations).selectSource (.custom "work") chance).2) = some (.ok 1) := by
    simp only [settings, store, chance, probe, operations]
    decide +kernel
  rw [hs] at hrun
  have hok := Option.some.inj hrun
  have hid : Source.IsId "work" := ⟨by decide, by decide⟩
  obtain ⟨_, _, _, hselected⟩ := selected_list_recalled (Store.inMemory_reliable .empty .empty) hs
    probe operations
  obtain ⟨_, _, hagain⟩ := hselected "work" chance 1 hok
  obtain ⟨s', hs', _, _, hsource⟩ := hagain _ chance fun _ => rfl
  exact ⟨s, s', hs, hok, hs', hsource hid⟩

/-- The settings have a list with a blank in front of its id, and pass their check. The list is
selected, and a new service has the configured source. -/
theorem selected_list_lost :
    let settings : Settings := { Settings.default with
      selection := { Selection.default with source := .custom "work" }
      lists := [⟨" home", "Home", ["one"]⟩, ⟨"work", "Work", ["two"]⟩] }
    let store : Store := .inMemory .empty .empty
    let chance : Random.Stream := ⟨fun _ => 0, 0⟩
    ∃ s s', settings.validate = .ok () ∧ create settings store chance = .ok s ∧
      let selected := s.selectSource (.custom " home") chance
      selected.2 = .ok 1 ∧ selected.1.source = .custom " home" ∧
      create settings selected.1.store chance = .ok s' ∧ s'.source = .custom "work" := by
  intro settings store chance
  obtain ⟨s, hs⟩ : ∃ s, create settings store chance = .ok s := ⟨_, rfl⟩
  have hrun : (create settings store chance).toOption.map (fun s =>
      let selected := s.selectSource (.custom " home") chance
      (selected.2, selected.1.source,
        (create settings selected.1.store chance).toOption.map (·.source))) =
      some (.ok 1, .custom " home", some (.custom "work")) := by
    simp only [settings, store, chance]
    decide +kernel
  rw [hs] at hrun
  have hanswers := Option.some.inj hrun
  obtain ⟨s', hs', hsource⟩ := Option.map_eq_some_iff.1 (congrArg (·.2.2) hanswers)
  exact ⟨s, s', rfl, hs, congrArg (·.1) hanswers, congrArg (·.2.1) hanswers,
    eq_ok_of_toOption hs', hsource⟩

end Service
end ResolverRace
