import ResolverRace.Proofs.CommandLine.Effect

/-!
# Processes on one state file

Each command is run by a process of its own, which opens the state file, makes a service, asks it
for one thing at most, and ends. If the file can always be written, the next process finds what one
service would have that was asked for all of it: the lists, and what is remembered of outcomes. It
finds the selected source too, unless a list was created that was to be selected at the start and
was not there. That list is selected by the next process, but not by a service that is under way.

* `Alongside` — commands, each run by a process, and one service that is asked for the same.
* `Beside`, `Alongside.beside` — the invariant.
* `processes_as_one_service` — what the processes leave.
* `created_list_selected` — a list is created that was to be selected at the start.
-/

namespace ResolverRace
namespace CommandLine

open Service

/-- Commands are run one after another, each by a process that finds these settings, and one service
that was made at the start is asked for the same. The disk is the one that the processes leave. -/
inductive Alongside (settings : Settings) (w : World) (s₀ : Service) :
    List Command → Disk → Service → Prop where
  | start : openService settings w = .ok s₀ → Alongside settings w s₀ [] w.disk s₀
  | next {commands : List Command} {s : Service} (i : Invocation) (w' : World) (probe : Probe)
      (chance : Random.Stream) : Alongside settings w s₀ commands w'.disk s →
      loadSettings i.config w'.disk = .ok settings → i.command.Housekeeping →
      Alongside settings w s₀ (commands ++ [i.command]) (i.run w').disk
        (s.serveAll probe (i.command.requests chance))

/-- None of the lists that the commands create is a source of these. A list of which an entry is no
address is not created. -/
def CreatesNone (passed : List Source) (commands : List Command) : Prop :=
  ∀ id name entries l, Command.lists (.create id name entries) ∈ commands →
    buildList id (name.getD id) entries = .ok l → .custom id ∉ passed

section

variable {settings : Settings} {path : String} {w : World} {s s₀ t : Service} {d : Disk}
  {commands : List Command} {passed : List Source}

theorem openStore_of_upToDate (hfile : settings.general.stateFile = some path)
    (h : s.store.Unhindered path) (hupToDate : s.store.UpToDate) :
    openStore settings s.store.disk = .ok s.store := by
  obtain ⟨m, hbacking, _⟩ := h.inFile
  have hopened := (Store.upToDate_iff hbacking).1 hupToDate
  simp only [openStore, hfile, hopened, ← hbacking]
  exact congrArg _ (congrArg (Store.mk s.store.backing · s.store.disk) h.refusals.symm)

/-- The next process makes a service that agrees with the one before, but chooses its source. -/
theorem openService_again (hfile : settings.general.stateFile = some path)
    (h : s.Lasting settings path) (hdisk : w.disk = s.store.disk) :
    ∃ s', openService settings w = .ok s' ∧ s'.Lasting settings path ∧
      s.Agrees [Store.sourceKey] s' ∧ ∀ passed, s.Chosen settings passed → s.Agrees [] s' := by
  obtain ⟨s', hs', hagrees, hstore, hsource⟩ := h.create_again w.chance
  have hopen : openService settings w = .ok s' := by
    simp only [openService, hdisk, openStore_of_upToDate hfile h.unhindered h.upToDate, bind,
      Except.bind, makeService, hs']
    rfl
  obtain ⟨file, hopened, hcreate⟩ := (openService_eq_ok hfile).1 hopen
  have hwritable : FileStore.Writable w.disk path := hdisk ▸ h.unhindered.writable
  refine ⟨s', hopen, lasting_of_create hopened hwritable hcreate, hagrees, fun _ hchosen => ?_⟩
  refine ⟨hagrees.lists, hagrees.standing, fun _ => hsource.trans hchosen.source, ?_⟩
  rw [hstore]
  exact .refl [] s.store

theorem akin_requests (c : Command) (chance chance' : Random.Stream) :
    List.Forall₂ Operation.Akin (c.requests chance) (c.requests chance') := by
  cases c with
  | select | list | genConfig => exact .nil
  | report address worked =>
    simp only [Command.requests]
    split
    · rename_i hread
      exact .cons (.notify worked hread) .nil
    · exact .nil
  | lists action =>
    cases action with
    | «show» => exact .nil
    | create id name entries =>
      simp only [Command.requests]
      split
      · exact .cons (.upsertList _ chance chance') .nil
      · exact .nil
    | delete id => exact .cons (.removeList id chance chance') .nil
    | add id entry => exact .cons (.addEntry id entry chance chance') .nil
    | remove id entry =>
      simp only [Command.requests]
      split
      · exact .cons (.removeEntry id _ chance chance') .nil
      · exact .nil

theorem id_of_buildList {id name : String} {entries : List String} {l : UserList}
    (h : buildList id name entries = .ok l) : l.id = id := by
  rw [buildList] at h
  generalize hfirst : (⟨id, name, []⟩ : UserList) = first at h
  have hid : first.id = id := by rw [← hfirst]
  clear hfirst
  induction entries generalizing first with
  | nil =>
    cases h
    exact hid
  | cons entry entries ih =>
    rw [List.foldlM_cons] at h
    obtain ⟨m, hm, hrest⟩ := Disk.bind_eq_ok h
    split at hm
    · rename_i hadd
      cases hm
      exact ih m hrest ((UserList.id_of_add hadd).trans hid)
    · cases hm

theorem upserted_requests {c : Command} {chance : Random.Stream} {o : Operation} {l : UserList}
    (ho : o ∈ c.requests chance) (hl : o.upserted? = some l) :
    ∃ name entries, c = .lists (.create l.id name entries) ∧
      buildList l.id (name.getD l.id) entries = .ok l := by
  rw [Command.requests.eq_def] at ho
  split at ho
  · rename_i id name entries
    split at ho
    · rename_i hbuild
      cases List.mem_singleton.1 ho
      cases hl
      have hid := id_of_buildList hbuild
      exact ⟨name, entries, by rw [hid], by rw [hid]; exact hbuild⟩
    · cases ho
  · cases List.mem_singleton.1 ho
    cases hl
  · cases List.mem_singleton.1 ho
    cases hl
  · split at ho
    · cases List.mem_singleton.1 ho
      cases hl
    · cases ho
  · split at ho
    · cases List.mem_singleton.1 ho
      cases hl
    · cases ho
  · cases ho

/-- The service is in its file, and on the disk beside it there is one that has the same, but may
have another source. -/
structure Beside (settings : Settings) (path : String) (passed : List Source)
    (commands : List Command) (d : Disk) (s : Service) : Prop where
  lasting : s.Lasting settings path
  process : ∃ t : Service, t.Lasting settings path ∧ t.store.disk = d ∧
    s.Agrees [Store.sourceKey] t ∧
    (CreatesNone passed commands → s.Chosen settings passed ∧ s.Agrees [] t)

theorem Alongside.beside (hfile : settings.general.stateFile = some path)
    (hwritable : FileStore.Writable w.disk path) (h : Alongside settings w s₀ commands d s) :
    Beside settings path (passedOver settings s₀) commands d s := by
  induction h with
  | start hs =>
    obtain ⟨file, hopened, hcreate⟩ := (openService_eq_ok hfile).1 hs
    have hlasting := lasting_of_create hopened hwritable hcreate
    have hreadable := (Store.unhindered_of_opened hopened hwritable).reliable.readable
    exact ⟨hlasting, s₀, hlasting, disk_openService hfile hs, .refl _ s₀,
      fun _ => ⟨chosen_of_create hreadable hcreate, .refl [] s₀⟩⟩
  | @next commands s i w' probe chance _ hsettings hi ih =>
    obtain ⟨hlasting, t, ht, hdisk, hagrees, hsame⟩ := ih
    obtain ⟨t', hopen, ht', hagrees', hsame'⟩ := openService_again hfile ht hdisk.symm
    have hakin := akin_requests i.command chance w'.chance
    have hagain := akin_requests i.command w'.chance w'.chance
    refine ⟨hlasting.serveAll hakin, t'.serveAll w'.probe (i.command.requests w'.chance),
      ht'.serveAll hagain, (disk_run hfile hsettings hopen hi).symm,
      (hagrees.trans hagrees').serveAll hlasting ht' hakin, ?_⟩
    intro hnew
    obtain ⟨hchosen, hsame⟩ := hsame fun id name entries l hin =>
      hnew id name entries l (List.mem_append_left _ hin)
    refine ⟨hchosen.serveAll hlasting hakin fun o ho l hl => ?_, ?_⟩
    · obtain ⟨name, entries, hc, hbuild⟩ := upserted_requests ho hl
      have hin := List.mem_append_right commands (List.mem_singleton.2 hc.symm)
      exact hnew l.id name entries l hin hbuild
    · exact (hsame.trans (hsame' _ (hchosen.agrees hsame))).serveAll hlasting ht' hakin

end

/-- The state file can be written. Commands are run one after another, each by a process of its own,
beside one service that is asked for the same, and that has all of what it has in its file. The next
process has the same lists as the service, remembers the same of outcomes, and finds the same in the
file, the selected source aside. If no list is created that was passed over at the start, then the
selected source is the same too. A command that fails, that only shows something, or that tells that
there was nothing to do, leaves the disk as it was. -/
theorem processes_as_one_service {settings : Settings} {path : String} {w : World}
    (hfile : settings.general.stateFile = some path) (hwritable : FileStore.Writable w.disk path) :
    (∀ {s₀ s : Service} {commands : List Command} {d : Disk},
      Alongside settings w s₀ commands d s →
        FileStore.Writable d path ∧ s.store.UpToDate ∧
        ∀ w' : World, w'.disk = d → ∃ s', openService settings w' = .ok s' ∧
          s.Agrees [Store.sourceKey] s' ∧
          (CreatesNone (passedOver settings s₀) commands → s.Agrees [] s')) ∧
      ∀ i : Invocation, loadSettings i.config w.disk = .ok settings → i.command.Housekeeping →
        Idle i.command (i.run w) → (i.run w).disk = w.disk := by
  refine ⟨fun {s₀ s commands d} h => ?_, fun i hsettings hi hidle =>
    disk_run_idle hfile hwritable hsettings hi hidle⟩
  obtain ⟨hlasting, t, ht, rfl, hagrees, hsame⟩ := h.beside hfile hwritable
  refine ⟨ht.unhindered.writable, hlasting.upToDate, fun w' hdisk => ?_⟩
  obtain ⟨s', hopen, _, hagrees', hsame'⟩ := openService_again hfile ht hdisk
  refine ⟨s', hopen, hagrees.trans hagrees', fun hnew => ?_⟩
  obtain ⟨hchosen, hsame⟩ := hsame hnew
  exact hsame.trans (hsame' _ (hchosen.agrees hsame))

/-- There is no state file yet. A resolver fails, and then a list is created that has it. At the
start there is no list to delete. -/
theorem processes_as_one_service_of_new_file :
    let settings : Settings := { Settings.default with
      general := { General.default with stateFile := some "state.json" }
      selection := { Selection.default with shuffle := false } }
    let config : String :=
      "[common]\nstate_file = \"state.json\"\n[selection]\nshuffle = false\n"
    let disk : Disk := ⟨[(["dnspick.toml"], .file (some config))], []⟩
    let w : World := ⟨disk, fun _ _ _ => ⟨none, .failure ""⟩, ⟨fun _ => 0, 0⟩⟩
    let report : Invocation := ⟨"dnspick.toml", none, .report "9.9.9.9" false⟩
    let create : Invocation := ⟨"dnspick.toml", none, .lists (.create "work" none ["9.9.9.9"])⟩
    let delete : Invocation := ⟨"dnspick.toml", none, .lists (.delete "work")⟩
    let d := (report.run w).disk
    let d' := (create.run { w with disk := d }).disk
    FileStore.Writable disk "state.json" ∧
      (∃ s₀ s s', Alongside settings w s₀ [report.command, create.command] d' s ∧
        openService settings { w with disk := d' } = .ok s' ∧ s.Agrees [] s' ∧
        s'.catalogue.lists = [⟨"work", "work", ["9.9.9.9"]⟩] ∧
        s'.standing = ⟨none, [wellKnown 9 9 9 9]⟩) ∧
      (delete.run w).failure.isSome = true ∧ (delete.run w).disk = disk := by
  intro settings config disk w report create delete d d'
  have hflush : (FileStore.flush disk "state.json" .empty).2 = .ok () := by decide +kernel
  have hwritable := (FileStore.writable_of_flush (Prod.ext rfl hflush)).1
  -- What the first process leaves, so that the second one is run by itself.
  have hd : d = ⟨[(["state.json"], .file (some (KeyMap.text
        ⟨[(Store.demotedKey, Standing.encode ["9.9.9.9:53"])]⟩))),
      (["dnspick.toml"], .file (some config))], []⟩ := by
    simp only [d, report, w, disk, config]
    decide +kernel
  have hsettings : loadSettings "dnspick.toml" disk = .ok settings ∧
      loadSettings "dnspick.toml" d = .ok settings := by
    rw [hd]
    simp only [settings, disk, config]
    decide +kernel
  have hservice : (openService settings w).toOption.map (fun s =>
      let t := (s.serveAll w.probe (report.command.requests w.chance)).serveAll w.probe
        (create.command.requests w.chance)
      (passedOver settings s, t.catalogue.lists, t.standing)) =
        some ([], [⟨"work", "work", ["9.9.9.9"]⟩], ⟨none, [wellKnown 9 9 9 9]⟩) := by
    simp only [settings, w, disk, config, create, report]
    decide +kernel
  have hfailed : (delete.run w).failure.isSome = true := by
    simp only [delete, w, disk, config]
    decide +kernel
  obtain ⟨s₀, hs₀, hvalues⟩ := Option.map_eq_some_iff.1 hservice
  have hreported : Alongside settings w s₀ [report.command] d _ :=
    .next report w w.probe w.chance (.start (eq_ok_of_toOption hs₀)) hsettings.1 trivial
  have hcreated : Alongside settings w s₀ [report.command, create.command] d' _ :=
    .next create { w with disk := d } w.probe w.chance hreported hsettings.2 trivial
  have hnone : CreatesNone (passedOver settings s₀) [report.command, create.command] := by
    intro id name entries l _ _
    rw [show passedOver settings s₀ = [] from congrArg Prod.fst hvalues]
    exact List.not_mem_nil
  obtain ⟨hsame, hidle⟩ := @processes_as_one_service settings "state.json" w rfl hwritable
  obtain ⟨_, _, hnext⟩ := hsame hcreated
  obtain ⟨s', hs', _, hagrees⟩ := hnext { w with disk := d' } rfl
  refine ⟨hwritable, ⟨s₀, _, s', hcreated, hs', hagrees hnone, ?_, ?_⟩, hfailed, ?_⟩
  · exact (hagrees hnone).lists.trans (congrArg (·.2.1) hvalues)
  · exact (hagrees hnone).standing.trans (congrArg (·.2.2) hvalues)
  · exact hidle delete hsettings.1 trivial (.failed hfailed)

/-- The state file names a list that is not there, so the built-in list is selected. When the list
is created the next process selects it, and when it is deleted the built-in list is stored as the
choice. One service has the built-in list selected all the time, and does not store that. -/
theorem created_list_selected :
    let settings : Settings := { Settings.default with
      general := { General.default with stateFile := some "state.json" }
      selection := { Selection.default with shuffle := false } }
    let config : String :=
      "[common]\nstate_file = \"state.json\"\n[selection]\nshuffle = false\n"
    let stored : String := "\x7b\"selected_source\": \"custom:work\"\x7d"
    let disk : Disk := ⟨[(["dnspick.toml"], .file (some config)),
      (["state.json"], .file (some stored))], []⟩
    let w : World := ⟨disk, fun _ _ _ => ⟨none, .failure ""⟩, ⟨fun _ => 0, 0⟩⟩
    let create : Invocation := ⟨"dnspick.toml", none, .lists (.create "work" none ["9.9.9.9"])⟩
    let delete : Invocation := ⟨"dnspick.toml", none, .lists (.delete "work")⟩
    let d := (create.run w).disk
    let d' := (delete.run { w with disk := d }).disk
    FileStore.Writable disk "state.json" ∧
      ∃ s₀ s t, Alongside settings w s₀ [create.command] d s ∧
        openService settings { w with disk := d } = .ok t ∧
        s.source = .builtin ∧ t.source = .custom "work" ∧
        ∃ s' t', Alongside settings w s₀ [create.command, delete.command] d' s' ∧
          openService settings { w with disk := d' } = .ok t' ∧
          s'.store.values.get? Store.sourceKey = some "custom:work" ∧
          t'.store.values.get? Store.sourceKey = some "builtin" := by
  intro settings config stored disk w create delete d d'
  have hflush : (FileStore.flush disk "state.json" .empty).2 = .ok () := by decide +kernel
  have hwritable := (FileStore.writable_of_flush (Prod.ext rfl hflush)).1
  -- What the processes leave, so that each of them is run by itself.
  let state (lists : List UserList) (source : String) : Disk :=
    ⟨[(["state.json"], .file (some (KeyMap.text ⟨[(Store.listsKey,
        Json.compact (.list (lists.map UserList.toDatum))), (Store.sourceKey, source)]⟩))),
      (["dnspick.toml"], .file (some config))], []⟩
  have hd : d = state [⟨"work", "work", ["9.9.9.9"]⟩] "custom:work" := by
    simp only [d, state, create, w, disk, stored, config]
    decide +kernel
  have hd' : d' = state [] "builtin" := by
    simp only [d', hd, state, delete, w, config]
    decide +kernel
  have hsettings : loadSettings "dnspick.toml" disk = .ok settings ∧
      loadSettings "dnspick.toml" d = .ok settings := by
    rw [hd]
    simp only [state, settings, disk, stored, config]
    decide +kernel
  have hservice : (openService settings w).toOption.map (fun s =>
      let s := s.serveAll w.probe (create.command.requests w.chance)
      (s.source, (s.serveAll w.probe (delete.command.requests w.chance)).store.values.get?
        Store.sourceKey)) = some (.builtin, some "custom:work") := by
    simp only [settings, w, disk, stored, config, create, delete]
    decide +kernel
  have hnext : (openService settings { w with disk := d }).toOption.map (·.source) =
      some (.custom "work") := by
    rw [hd]
    simp only [state, settings, w, config]
    decide +kernel
  have hlast : (openService settings { w with disk := d' }).toOption.map
      (·.store.values.get? Store.sourceKey) = some (some "builtin") := by
    rw [hd']
    simp only [state, settings, w, config]
    decide +kernel
  obtain ⟨s₀, hs₀, hvalues⟩ := Option.map_eq_some_iff.1 hservice
  obtain ⟨t, ht, hsource⟩ := Option.map_eq_some_iff.1 hnext
  obtain ⟨t', ht', hstored⟩ := Option.map_eq_some_iff.1 hlast
  have hcreated : Alongside settings w s₀ [create.command] d _ :=
    .next create w w.probe w.chance (.start (eq_ok_of_toOption hs₀)) hsettings.1 trivial
  have hdeleted : Alongside settings w s₀ [create.command, delete.command] d' _ :=
    .next delete { w with disk := d } w.probe w.chance hcreated hsettings.2 trivial
  exact ⟨hwritable, s₀, _, t, hcreated, eq_ok_of_toOption ht, congrArg Prod.fst hvalues, hsource,
    _, t', hdeleted, eq_ok_of_toOption ht', congrArg Prod.snd hvalues, hstored⟩

end CommandLine
end ResolverRace
