import ResolverRace.Proofs.Service.Acknowledged

/-!
# How a service starts

The configured source was checked against the configured lists. The lists that count may be other
ones, from the store, and the store may hold a source that is gone or a text that names none. A
service starts all the same, with the stored source, the configured one or the built-in list,
whichever is there first; and starting writes nothing.

* `Source.Among` — which sources are there.
* `Service.ListsAtStart`, `Service.SourceAtStart` — the lists and the source to start with, told
  from the values of the store.
* `create_started` — settings that pass their check and a store that can be read give such a
  service, and no store whatever makes the start fail for want of a list.
-/

namespace ResolverRace

/-- The source is the built-in list or one of these lists. -/
def Source.Among (lists : List UserList) : Source → Prop
  | .builtin => True
  | .custom id => ∃ l ∈ lists, l.id = id

theorem Catalogue.resolves_iff (c : Catalogue) (source : Source) :
    c.resolves source = true ↔ source.Among c.lists := by
  cases source with
  | builtin => exact ⟨fun _ => trivial, fun _ => rfl⟩
  | custom id => simp [resolves, find?, Source.Among]

namespace Service

/-- The lists to start with: the stored ones if there are any values for them, even for none. -/
inductive ListsAtStart (settings : Settings) (values : KeyMap) : List UserList → Prop where
  | stored {value : String} {lists : List UserList} :
      values.get? Store.listsKey = some value →
      (Json.parse? value).bind (UserList.allOfDatum? true) = some lists →
      ListsAtStart settings values lists
  | configured : values.get? Store.listsKey = none → ListsAtStart settings values settings.lists

/-- What is stored names a source that is there. -/
def Remembers (values : KeyMap) (lists : List UserList) (source : Source) : Prop :=
  ∃ text, values.get? Store.sourceKey = some text ∧ Source.parse text = .ok source ∧
    source.Among lists

/-- The source to start with. -/
inductive SourceAtStart (values : KeyMap) (lists : List UserList) (configured : Source) :
    Source → Prop where
  | stored {source : Source} : Remembers values lists source →
      SourceAtStart values lists configured source
  | configured : (∀ source, ¬Remembers values lists source) → configured.Among lists →
      SourceAtStart values lists configured configured
  | builtin : (∀ source, ¬Remembers values lists source) → ¬configured.Among lists →
      SourceAtStart values lists configured .builtin

/-- The service as it starts with some settings from a store. -/
structure Started (settings : Settings) (store : Store) (chance : Random.Stream) (s : Service) :
    Prop where
  store_eq : s.store = store
  session_eq : s.session = .idle
  defaults_eq : s.defaults = settings.params
  standing_eq : Standing.load store = .ok s.standing
  lists : ListsAtStart settings store.values s.catalogue.lists
  /-- Apart from the lists the settings count. -/
  catalogue_eq : s.catalogue = { settings.catalogue store.disk with lists := s.catalogue.lists }
  source : SourceAtStart store.values s.catalogue.lists settings.selection.source s.source
  pool_eq : makePool s.catalogue s.standing s.source chance = .ok s.pool

section

variable {settings : Settings} {store : Store} {c : Catalogue} {e : Error}

/-! ## What is read at the start -/

theorem Legible.withStoredLists (h : Legible store) (c : Catalogue) :
    ∃ c', withStoredLists c store = .ok c' := by
  simp only [Service.withStoredLists, storedLists, h.readable.get]
  cases hvalue : store.values.get? Store.listsKey with
  | none => exact ⟨c, rfl⟩
  | some value =>
    obtain ⟨lists, hlists⟩ := Option.isSome_iff_exists.1 (h.lists value hvalue)
    exact ⟨{ c with lists := lists }, by simp only [hlists]; rfl⟩

theorem listsAtStart (hs : store.Readable)
    (h : withStoredLists (settings.catalogue store.disk) store = .ok c) :
    ListsAtStart settings store.values c.lists ∧
      c = { settings.catalogue store.disk with lists := c.lists } := by
  obtain ⟨stored, hstored, rfl⟩ := map_eq_ok h
  simp only [storedLists, hs.get] at hstored
  cases hvalue : store.values.get? Store.listsKey with
  | none =>
    simp only [hvalue] at hstored
    cases hstored
    refine ⟨?_, rfl⟩
    show ListsAtStart settings store.values (settings.catalogue store.disk).lists
    rw [lists_catalogue]
    exact .configured hvalue
  | some value =>
    simp only [hvalue] at hstored
    split at hstored
    · rename_i lists hlists
      cases hstored
      exact ⟨.stored hvalue hlists, rfl⟩
    · cases hstored

theorem storedSource_eq (hs : store.Readable) :
    storedSource store = .ok ((store.values.get? Store.sourceKey).bind fun text =>
      (Source.parse text).toOption) := by
  rw [storedSource, hs.get]
  rfl

/-- What is stored names the source that is found in it, if that one can be loaded. -/
theorem remembers_iff {source : Source} :
    Remembers store.values c.lists source ↔
      ((store.values.get? Store.sourceKey).bind fun text => (Source.parse text).toOption) =
        some source ∧ c.resolves source = true := by
  rw [c.resolves_iff, Option.bind_eq_some_iff]
  refine ⟨?_, ?_⟩
  · rintro ⟨text, hvalue, hparse, hamong⟩
    exact ⟨⟨text, hvalue, by rw [hparse]; rfl⟩, hamong⟩
  · rintro ⟨⟨text, hvalue, hparse⟩, hamong⟩
    exact ⟨text, hvalue, eq_ok_of_toOption hparse, hamong⟩

theorem sourceAtStart (c : Catalogue) (configured : Source) {stored : Option Source}
    (hs : store.Readable) (h : storedSource store = .ok stored) :
    SourceAtStart store.values c.lists configured (chooseSource c stored configured) := by
  rw [storedSource_eq hs] at h
  obtain rfl := Except.ok.inj h
  by_cases hany : ∃ source, Remembers store.values c.lists source
  · obtain ⟨source, hsource⟩ := hany
    obtain ⟨hstored, hresolves⟩ := remembers_iff.1 hsource
    rw [chooseSource_eq (by rw [hstored]; rfl) hresolves]
    exact .stored hsource
  · have hnone : ∀ source, ¬Remembers store.values c.lists source := not_exists.1 hany
    -- The stored source is passed over, so the choice is the same as without one.
    have hover : chooseSource c ((store.values.get? Store.sourceKey).bind fun text =>
        (Source.parse text).toOption) configured = chooseSource c none configured := by
      cases hstored : (store.values.get? Store.sourceKey).bind fun text =>
          (Source.parse text).toOption with
      | none => rfl
      | some source =>
        have hgone : ¬c.resolves source = true := fun hresolves =>
          hnone source (remembers_iff.2 ⟨hstored, hresolves⟩)
        simp [chooseSource, hgone]
    rw [hover]
    by_cases hconfigured : c.resolves configured = true
    · rw [chooseSource_eq rfl hconfigured]
      exact .configured hnone ((c.resolves_iff configured).1 hconfigured)
    · have hbuiltin : chooseSource c none configured = .builtin := by
        simp [chooseSource, hconfigured]
      rw [hbuiltin]
      exact .builtin hnone fun hamong => hconfigured ((c.resolves_iff configured).2 hamong)

/-! ## What can go wrong -/

/-- Errors of reading what is stored. -/
inductive OfReading : Error → Prop where
  | store (cause : StoreError) : OfReading (.store cause)
  | encoding : OfReading .encoding

theorem ofReading_get {key : String} (h : store.get key = .error e) : OfReading e := by
  rw [Store.get] at h
  split at h
  · cases h
    exact .store _
  · cases h

theorem ofReading_storedLists (h : storedLists store = .error e) : OfReading e := by
  rw [storedLists] at h
  split at h
  · rename_i e' hget
    cases h
    exact ofReading_get hget
  · cases h
  · split at h
    · cases h
    · cases h
      exact .encoding

theorem map_eq_error {α β : Type} {f : α → β} {x : Except Error α} (h : x.map f = .error e) :
    x = .error e := by
  cases x with
  | error e' => cases h; rfl
  | ok a => cases h

theorem ofReading_load (h : Standing.load store = .error e) : OfReading e := by
  simp only [Standing.load, bind, Except.bind, pure, Except.pure] at h
  split at h
  · rename_i e' hget
    cases h
    exact ofReading_get hget
  · split at h
    · rename_i e' hget
      cases h
      exact ofReading_get hget
    · split at h
      · cases h
      · split at h
        · cases h
        · cases h
          exact .encoding

/-- If a service cannot be made, something that is stored could not be read. -/
theorem ofReading_create {chance : Random.Stream} (hvalid : settings.validate = .ok ())
    (h : create settings store chance = .error e) : OfReading e := by
  cases hc : withStoredLists (settings.catalogue store.disk) store with
  | error e' =>
    simp only [create, hvalid, hc, bind, Except.bind] at h
    cases h
    exact ofReading_storedLists (map_eq_error hc)
  | ok c =>
    cases hload : Standing.load store with
    | error e' =>
      simp only [create, hvalid, hc, Tracked.opened, hload, Except.map, bind, Except.bind] at h
      cases h
      exact ofReading_load hload
    | ok standing =>
      cases hstored : storedSource store with
      | error e' =>
        simp only [create, hvalid, hc, Tracked.opened, hload, Except.map, hstored, bind,
          Except.bind] at h
        cases h
        exact ofReading_get (map_eq_error hstored)
      | ok stored =>
        obtain ⟨_, _, hcreate⟩ := create_of_read hvalid hc hload hstored chance
        rw [hcreate] at h
        cases h

end

/-- Settings that pass their check give a service with any store that can be read, whatever source
and last winner it names, and the service starts as it should: from the first source that is there,
without a write. What is wrong with another store is never that the chosen list is missing. -/
theorem create_started {settings : Settings} (hvalid : settings.validate = .ok ()) (store : Store)
    (chance : Random.Stream) :
    (Legible store → ∃ s, create settings store chance = .ok s ∧
      s.Started settings store chance) ∧
      ∀ cause, create settings store chance ≠ .error (.pool cause) := by
  refine ⟨fun h => ?_, fun cause herror => nomatch ofReading_create hvalid herror⟩
  obtain ⟨c, hc⟩ := h.withStoredLists (settings.catalogue store.disk)
  obtain ⟨standing, hload⟩ := h.load
  have hstored := storedSource_eq h.readable
  obtain ⟨hlists, hcatalogue⟩ := listsAtStart h.readable hc
  obtain ⟨pool, hpool, hcreate⟩ := create_of_read hvalid hc hload hstored chance
  exact ⟨_, hcreate,
    { store_eq := rfl
      session_eq := rfl
      defaults_eq := rfl
      standing_eq := hload
      lists := hlists
      catalogue_eq := hcatalogue
      source := sourceAtStart c settings.selection.source h.readable hstored
      pool_eq := hpool }⟩

/-- The file keeps lists without the configured one, a source that is gone and a last winner that
is no address: the service starts with the built-in list. -/
theorem started_without_configured_list :
    let settings : Settings := { Settings.default with
      selection := { Selection.default with source := .custom "home" }
      lists := [⟨"home", "Home", ["1.1.1.1"]⟩] }
    let lists : List UserList := [⟨"work", "Work", ["9.9.9.9"]⟩]
    let store : Store := .inMemory
      (((KeyMap.empty.insert Store.listsKey
        (Json.compact (.list (lists.map UserList.toDatum)))).insert Store.sourceKey
          "custom:gone").insert Store.lastKey "nowhere at all") .empty
    let chance : Random.Stream := ⟨fun _ => 0, 0⟩
    settings.validate = .ok () ∧ Legible store ∧ ∃ s, create settings store chance = .ok s ∧
      s.store = store ∧ s.catalogue.lists = lists ∧ s.source = .builtin ∧
      s.standing = .empty := by
  intro settings lists store chance
  have hvalid : settings.validate = .ok () := rfl
  have hlegible : Legible store := by
    refine ⟨fun _ => rfl, fun value hvalue => ?_, fun value hvalue => ?_⟩
    · obtain rfl : Json.compact (.list (lists.map UserList.toDatum)) = value :=
        Option.some.inj (Eq.trans (by decide +kernel) hvalue)
      rw [parse?_lists]
      rfl
    · have hnone : store.values.get? Store.demotedKey = none := by decide +kernel
      rw [hnone] at hvalue
      cases hvalue
  obtain ⟨s, hs, hstarted⟩ := (create_started hvalid store chance).1 hlegible
  have hrun : (create settings store chance).toOption.map (fun s =>
      (s.catalogue.lists, s.source, s.standing)) = some (lists, .builtin, .empty) := by
    simp only [settings, lists, store, chance]
    decide +kernel
  rw [hs] at hrun
  have hmade := Option.some.inj hrun
  exact ⟨hvalid, hlegible, s, hs, hstarted.store_eq, congrArg (·.1) hmade,
    congrArg (·.2.1) hmade, congrArg (·.2.2) hmade⟩

end Service
end ResolverRace
