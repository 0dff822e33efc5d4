import ResolverRace.CommandLine.Run
import ResolverRace.Proofs.Service.Lasting

/-!
# What a command does to the disk

A command that edits or shows lists, shows an order or reports an outcome makes a service, asks it
for one thing at most, and ends. The disk is then that of the service. If the command has failed,
only shows something, or tells that there was nothing to do, then the disk is as it was found.

* `Command.requests` — what a command asks of its service.
* `disk_run` — the disk after a command.
* `Idle`, `disk_run_idle` — the commands that leave the disk as it was.
-/

namespace ResolverRace
namespace CommandLine

open Service

/-- What a command asks of its service: nothing if it only shows something, or if it cannot read
what it was given. -/
def Command.requests (chance : Random.Stream) : Command → List Operation
  | .lists (.create id name entries) =>
    match buildList id (name.getD id) entries with
    | .ok l => [.upsertList l chance]
    | .error _ => []
  | .lists (.delete id) => [.removeList id chance]
  | .lists (.add id entry) => [.addEntry id entry chance]
  | .lists (.remove id entry) =>
    match Address.parse entry with
    | .ok a => [.removeEntry id a chance]
    | .error _ => []
  | .report address worked =>
    match Address.parse address with
    | .ok a => [.notify a worked]
    | .error _ => []
  | _ => []

/-- The command is none of those that race and that write a settings file. -/
def Command.Housekeeping : Command → Prop
  | .list _ | .report .. | .lists _ => True
  | .select .. | .genConfig _ => False

/-- A command that failed, that only shows something, or that told that there was nothing to do. -/
inductive Idle (c : Command) (e : Ending) : Prop where
  | failed : e.failure.isSome = true → Idle c e
  | list (source : Option String) : c = .list source → Idle c e
  | shown : c = .lists .show → Idle c e
  | contained (id entry : String) : c = .lists (.add id entry) →
      e.lines = [s!"'{id}' already contains {Text.trim entry}"] → Idle c e
  | absent (id entry : String) (a : Address) : c = .lists (.remove id entry) →
      Address.parse entry = .ok a → e.lines = [s!"'{id}' does not contain {a}"] → Idle c e

section

variable {settings : Settings} {path : String} {w : World} {i : Invocation} {s : Service}

theorem mapError_eq_ok {ε ε' α : Type} {f : ε → ε'} {x : Except ε α} {a : α} :
    x.mapError f = .ok a ↔ x = .ok a := by
  cases x <;> simp [Except.mapError]

theorem disk_conclude {α : Type} (doing : String) (lines : α → List String)
    (x : Service × Except Error α) : (conclude doing lines x).disk = x.1.store.disk := by
  obtain ⟨s, _ | _⟩ := x <;> rfl

/-- The service of a command is made from the state file. -/
theorem openService_eq_ok (hfile : settings.general.stateFile = some path) :
    openService settings w = .ok s ↔ ∃ file, FileStore.opened w.disk path = .ok file ∧
      Service.create settings ⟨.file file, [], w.disk⟩ w.chance = .ok s := by
  cases hopened : FileStore.opened w.disk path with
  | error e =>
    simp [openService, openStore, hfile, hopened, bind, Except.bind]
  | ok file =>
    simp [openService, openStore, hfile, hopened, bind, Except.bind, makeService, mapError_eq_ok]

theorem disk_openService (hfile : settings.general.stateFile = some path)
    (hs : openService settings w = .ok s) : s.store.disk = w.disk := by
  obtain ⟨_, _, hcreate⟩ := (openService_eq_ok hfile).1 hs
  rw [(create_cases hcreate).2.2.1]

/-- The disk after a command is that of its service, after what was asked. -/
theorem disk_run (hfile : settings.general.stateFile = some path)
    (hsettings : loadSettings i.config w.disk = .ok settings) (hs : openService settings w = .ok s)
    (hi : i.command.Housekeeping) :
    (i.run w).disk = (s.serveAll w.probe (i.command.requests w.chance)).store.disk := by
  have hdisk := disk_openService hfile hs
  obtain ⟨config, logLevel, command⟩ := i
  cases command with
  | select | genConfig => cases hi
  | list source =>
    simp only [Invocation.run, withSettings, hsettings, list, withService, hs, Command.requests]
    split
    · rfl
    · split
      · rfl
      · exact disk_conclude _ _ _
  | report address worked =>
    simp only [Invocation.run, withSettings, hsettings, report, readAddress, Command.requests]
    cases Address.parse address with
    | error cause => exact hdisk.symm
    | ok a =>
      simp only [Except.mapError, withService, hs]
      exact disk_conclude _ _ _
  | lists action =>
    simp only [Invocation.run, withSettings, hsettings, withService, hs, Command.requests]
    cases action with
    | «show» => rfl
    | create id name entries =>
      simp only [edit]
      split
      · rename_i hbuild
        simp only [hbuild]
        rfl
      · rename_i hbuild
        simp only [hbuild]
        exact disk_conclude _ _ _
    | delete id => exact disk_conclude _ _ _
    | add id entry => exact disk_conclude _ _ _
    | remove id entry =>
      simp only [edit, readAddress]
      cases Address.parse entry with
      | error cause => rfl
      | ok a => exact disk_conclude _ _ _

/-- Without a service nothing is done. -/
theorem disk_run_unopened {f : Failure} (hsettings : loadSettings i.config w.disk = .ok settings)
    (hs : openService settings w = .error f) (hi : i.command.Housekeeping) :
    (i.run w).disk = w.disk := by
  obtain ⟨config, logLevel, command⟩ := i
  cases command with
  | select | genConfig => cases hi
  | list source =>
    simp only [Invocation.run, withSettings, hsettings, list, withService, hs]
    rfl
  | report address worked =>
    simp only [Invocation.run, withSettings, hsettings, report, withService, hs]
    split <;> rfl
  | lists action =>
    simp only [Invocation.run, withSettings, hsettings, withService, hs]
    rfl

/-! ## Commands that do nothing -/

theorem ne_ok_of_failed {α : Type} {doing : String} {lines : α → List String}
    {x : Service × Except Error α} (h : (conclude doing lines x).failure.isSome = true) (a : α) :
    x.2 ≠ .ok a := by
  obtain ⟨s, e | b⟩ := x
  · exact nofun
  · cases h

theorem ne_ok_of_lines {α : Type} {doing line told : String} {lines : α → List String}
    {x : Service × Except Error α} {a : α} (h : (conclude doing lines x).lines = [line])
    (ha : lines a = [told]) (hne : told ≠ line) : x.2 ≠ .ok a := by
  obtain ⟨s, e | b⟩ := x
  · cases h
  · rintro hb
    cases hb
    exact hne (List.head_eq_of_cons_eq (ha.symm.trans h))

/-- The lines that tell of an entry that was added, or removed, are other ones. -/
theorem told_ne {id shown : String} :
    s!"Added {shown} to '{id}'" ≠ s!"'{id}' already contains {shown}" ∧
      s!"Removed {shown} from '{id}'" ≠ s!"'{id}' does not contain {shown}" := by
  constructor <;> intro h <;> simpa [toString] using congrArg (·.toList.head?) h

/-- An edit that does nothing is none that was answered as made. -/
theorem serveAll_of_idle_edit {action : ListAction} {chance : Random.Stream} (probe : Probe)
    (hs : s.store.Reliable) (hidle : Idle (.lists action) (edit action chance s)) :
    s.serveAll probe (Command.requests chance (.lists action)) = s := by
  cases action with
  | «show» => rfl
  | create id name entries =>
    simp only [edit, Command.requests] at hidle ⊢
    split at hidle
    · rename_i hbuild
      simp only [hbuild]
      rfl
    · rename_i l hbuild
      simp only [hbuild]
      refine serve_of_not_edited probe hs (o := .upsertList l chance) rfl fun hmade => ?_
      obtain ⟨replaced, hreplaced, _⟩ := map_eq_ok hmade
      cases hidle with
      | failed hfailed => exact ne_ok_of_failed hfailed replaced hreplaced
      | list _ h | shown h | contained _ _ h | absent _ _ _ h => cases h
  | delete id =>
    refine serve_of_not_edited probe hs (o := .removeList id chance) rfl fun hmade => ?_
    obtain ⟨removed, hremoved, _⟩ := map_eq_ok hmade
    cases hidle with
    | failed hfailed => exact ne_ok_of_failed hfailed removed hremoved
    | list _ h | shown h | contained _ _ h | absent _ _ _ h => cases h
  | add id entry =>
    refine serve_of_not_edited probe hs (o := .addEntry id entry chance) rfl fun hadded => ?_
    cases hidle with
    | failed hfailed => exact ne_ok_of_failed hfailed true hadded
    | contained _ _ h hlines =>
      cases h
      exact ne_ok_of_lines hlines rfl told_ne.1 hadded
    | list _ h | shown h | absent _ _ _ h => cases h
  | remove id entry =>
    simp only [edit, readAddress, Command.requests] at hidle ⊢
    cases hread : Address.parse entry with
    | error cause => rfl
    | ok a =>
      simp only [hread, Except.mapError] at hidle
      refine serve_of_not_edited probe hs (o := .removeEntry id a chance) rfl fun hremoved => ?_
      cases hidle with
      | failed hfailed => exact ne_ok_of_failed hfailed true hremoved
      | absent _ _ _ h hread' hlines =>
        cases h
        cases hread.symm.trans hread'
        exact ne_ok_of_lines hlines rfl told_ne.2 hremoved
      | list _ h | shown h | contained _ _ h => cases h

/-- If no write fails, a command that does nothing leaves the disk as it was. -/
theorem disk_run_idle (hfile : settings.general.stateFile = some path)
    (hwritable : FileStore.Writable w.disk path)
    (hsettings : loadSettings i.config w.disk = .ok settings) (hi : i.command.Housekeeping)
    (hidle : Idle i.command (i.run w)) : (i.run w).disk = w.disk := by
  cases hs : openService settings w with
  | error f => exact disk_run_unopened hsettings hs hi
  | ok s =>
    have hdisk := disk_openService hfile hs
    obtain ⟨file, hopened, hcreate⟩ := (openService_eq_ok hfile).1 hs
    have hlasting := lasting_of_create hopened hwritable hcreate
    have hreliable := hlasting.unhindered.reliable
    rw [disk_run hfile hsettings hs hi, ← hdisk]
    obtain ⟨config, logLevel, command⟩ := i
    cases command with
    | select | genConfig => cases hi
    | list source => rfl
    | report address worked =>
      simp only [Invocation.run, withSettings, hsettings, report, readAddress] at hidle
      simp only [Command.requests]
      cases hread : Address.parse address with
      | error cause => rfl
      | ok a =>
        -- No write fails, so no report does.
        simp only [hread, Except.mapError, withService, hs] at hidle
        cases hidle with
        | failed hfailed =>
          have hok := stored_notify hlasting.stored hreliable (Address.parse_proper hread) worked
          exact absurd hok.1 (ne_ok_of_failed hfailed ())
        | list _ h | shown h | contained _ _ h | absent _ _ _ h => cases h
    | lists action =>
      simp only [Invocation.run, withSettings, hsettings, withService, hs] at hidle
      rw [serveAll_of_idle_edit w.probe hreliable hidle]

end

end CommandLine
end ResolverRace
