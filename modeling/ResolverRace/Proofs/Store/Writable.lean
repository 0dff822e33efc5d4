import ResolverRace.Proofs.Store.File

/-!
# Stores that can write their file

A store makes the directories above its file, writes a sibling file, and puts the sibling in the
place of the file. All of this depends on the directories alone, and it leaves no directory that
would be in the way the next time. So a file that was written once can be written with any values,
before and after, and a store of such a file is one that never fails.

* `FileStore.Writable` — any values can be written; `writable_of_flush`, `Writable.flush`.
* `Store.Unhindered` — a store of such a file, with `Unhindered.change`.
* `Unhindered.reliable` — it never fails.
-/

namespace ResolverRace
namespace FileStore

/-- Any values can be written to the file. -/
def Writable (disk : Disk) (path : String) : Prop := ∀ m : KeyMap, (flush disk path m).2 = .ok ()

section

variable {disk disk' : Disk} {path : String} {m : KeyMap}

/-- The three steps of writing the file. -/
theorem flush_eq_ok_iff : flush disk path m = (disk', .ok ()) ↔ ∃ made written,
    disk.makeParents path = (made, .ok ()) ∧
      made.writeText (siblingPath path) m.text = .ok written ∧
      written.rename (siblingPath path) path = .ok disk' := by
  constructor
  · intro h
    rw [flush] at h
    split at h
    · cases h
    · rename_i made hmade
      split at h
      · cases h
      · rename_i written hwrite
        split at h
        · cases h
        · rename_i hrename
          cases h
          exact ⟨made, written, hmade, hwrite, hrename⟩
  · rintro ⟨made, written, hmade, hwrite, hrename⟩
    simp only [flush, hmade, hwrite, hrename]

/-- What was written once can be written again, with any values. -/
theorem writable_of_flush (h : flush disk path m = (disk', .ok ())) :
    Writable disk path ∧ Writable disk' path := by
  obtain ⟨made, written, hmade, hwrite, hrename⟩ := flush_eq_ok_iff.1 h
  obtain ⟨place, hplace, hwritten, hfile⟩ := Disk.writeText_ok hwrite
  obtain ⟨_, _, _, hreplaced, _⟩ := Disk.rename_ok hrename (hplace.keep hwritten.forth) hfile
  -- Any disk with the directories that there are now will do.
  have hagain : ∀ e : Disk, made.Alike e → ∀ m' : KeyMap, ∃ e' e'',
      e.writeText (siblingPath path) m'.text = .ok e' ∧
        e'.rename (siblingPath path) path = .ok e'' := by
    intro e halike m'
    obtain ⟨e', he'⟩ := Disk.writeText_again hwrite halike m'.text
    obtain ⟨e'', he''⟩ := Disk.rename_again hrename (hwritten.symm.trans halike) he'
    exact ⟨e', e'', he', he''⟩
  have hafter := hwritten.trans hreplaced
  constructor
  · intro m'
    obtain ⟨e', e'', hwrite', hrename'⟩ := hagain made (.refl made) m'
    rw [flush_eq_ok_iff.2 ⟨made, e', hmade, hwrite', hrename'⟩]
  · intro m'
    obtain ⟨e', e'', hwrite', hrename'⟩ := hagain disk' hafter m'
    have hmade' := Disk.makeParents_again hmade hafter.forth
    rw [flush_eq_ok_iff.2 ⟨disk', e', hmade', hwrite', hrename'⟩]

theorem Writable.flush (h : Writable disk path) (m : KeyMap) :
    ∃ disk', FileStore.flush disk path m = (disk', .ok ()) ∧ Writable disk' path := by
  have hflush : FileStore.flush disk path m = ((FileStore.flush disk path m).1, .ok ()) :=
    Prod.ext rfl (h m)
  exact ⟨_, hflush, (writable_of_flush hflush).2⟩

end

end FileStore

namespace Store

section

variable {path : String} {disk : Disk} {m : KeyMap} {s : Store}

/-- Without refusals, a change of a file store has nothing to do or writes the file. -/
theorem change_free (path : String) (m : KeyMap) (disk : Disk) (c : Change) :
    (c.applyTo m = m ∧
        change ⟨.file ⟨path, m⟩, [], disk⟩ c = (⟨.file ⟨path, m⟩, [], disk⟩, .ok ())) ∨
      change ⟨.file ⟨path, m⟩, [], disk⟩ c =
        (⟨.file ⟨path, c.applyTo m⟩, [], (FileStore.flush disk path (c.applyTo m)).1⟩,
          (FileStore.flush disk path (c.applyTo m)).2) := by
  cases c with
  | put key value => exact .inr rfl
  | remove key =>
    cases hcontains : m.contains key with
    | true =>
      refine .inr ?_
      simp only [change, remove, removeAnyway, FileStore.remove, hcontains, if_true]
      rfl
    | false =>
      refine .inl ⟨KeyMap.erase_of_not_contains hcontains, ?_⟩
      simp only [change, remove, removeAnyway, FileStore.remove, hcontains]
      rfl

/-- A store of a file that can be written, which refuses nothing. -/
structure Unhindered (path : String) (s : Store) : Prop where
  inFile : s.InFile path
  refusals : s.refusals = []
  writable : FileStore.Writable s.disk path

theorem unhindered_of_opened {file : FileStore} (h : FileStore.opened disk path = .ok file)
    (hwritable : FileStore.Writable disk path) :
    (⟨.file file, [], disk⟩ : Store).Unhindered path :=
  ⟨inFile_of_opened h [] disk, rfl, hwritable⟩

theorem Unhindered.change (h : s.Unhindered path) (c : Change) :
    (s.change c).2 = .ok () ∧ (s.change c).1.Unhindered path := by
  have hinFile := h.inFile.change c
  obtain ⟨backing, refusals, disk⟩ := s
  obtain ⟨⟨m, rfl, hm⟩, rfl, hwritable⟩ := h
  rcases change_free path m disk c with ⟨_, hsame⟩ | hwritten
  · rw [hsame]
    exact ⟨rfl, ⟨m, rfl, hm⟩, rfl, hwritable⟩
  · obtain ⟨disk', hflush, hwritable'⟩ := hwritable.flush (c.applyTo m)
    rw [hflush] at hwritten
    rw [hwritten] at hinFile ⊢
    exact ⟨rfl, hinFile, rfl, hwritable'⟩

theorem Unhindered.changeAll (h : s.Unhindered path) (changes : List Change) :
    (s.changeAll changes).Unhindered path := by
  induction changes generalizing s with
  | nil => exact h
  | cons c changes ih => exact ih (h.change c).2

/-- A store that is hindered by nothing never fails. -/
theorem Unhindered.reliable (h : s.Unhindered path) : s.Reliable := by
  refine ⟨fun changes key => ?_, fun changes c => ((h.changeAll changes).change c).1⟩
  have hrefusals := (h.changeAll changes).refusals
  refine ⟨(s.changeAll changes).values.get? key, ?_⟩
  rw [Store.get, refuses, hrefusals]
  rfl

end

end Store
end ResolverRace
