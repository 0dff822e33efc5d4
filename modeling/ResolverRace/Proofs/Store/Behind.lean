import ResolverRace.Proofs.Store.TwoHandles

/-!
# When a file is behind its store

A change takes place in memory first, and then the file is written with all values. If that fails,
memory keeps the change and the file is behind. The next change that writes the file brings it up to
date; but a key that is missing in memory is removed without writing the file, and without an error.

* `FileStore.Handled` — a store of a file, with the changes made and their answers.
* `Handled.account` — memory has all changes, the file those up to the last one that was written.
* `acknowledged_changes` — when the file is up to date after an answer without an error.
* `retried_remove_unwritten` — a key is removed again after that has failed, and stays in the file.
-/

namespace ResolverRace
namespace FileStore

/-- A change that was asked for, whether there was anything to write, and the answer. -/
structure Entry where
  change : Store.Change
  writes : Bool
  result : Except Error Unit

/-- The file was written. -/
def Entry.Written (e : Entry) : Prop := e.writes = true ∧ e.result = .ok ()

/-- The values after some changes. -/
def after (m : KeyMap) (history : List Entry) : KeyMap :=
  history.foldl (fun m e => e.change.applyTo m) m

/-- The store was opened on a file with the values `m`, and these changes were asked of it. Any of
them may fail to write the file, which then stays as it was. -/
inductive Handled (path : String) (m : KeyMap) : List Entry → FileStore → Disk → Prop where
  | start {disk : Disk} : opened disk path = .ok ⟨path, m⟩ → Handled path m [] ⟨path, m⟩ disk
  | change {history : List Entry} {s s' : FileStore} {disk disk' : Disk}
      {hindrance : Option Error} {c : Store.Change} {result : Except Error Unit} :
      Handled path m history s disk → s.change disk hindrance c = (s', disk', result) →
      (result ≠ .ok () → opened disk' path = opened disk path) →
      Handled path m (history ++ [⟨c, s.writes c, result⟩]) s' disk'
  /-- Between the changes the disk may change, but for the file. -/
  | meanwhile {history : List Entry} {s : FileStore} {disk : Disk} (disk' : Disk) :
      Handled path m history s disk → opened disk' path = opened disk path →
      Handled path m history s disk'

section

variable {path : String} {m : KeyMap} {history : List Entry} {s s' : FileStore} {disk disk' : Disk}
  {hindrance : Option Error} {c : Store.Change}

/-! ## One change -/

/-- Whatever is answered, the change is served from then on. -/
theorem served_of_change {result : Except Error Unit}
    (h : s.change disk hindrance c = (s', disk', result)) : s' = ⟨s.path, c.applyTo s.values⟩ := by
  cases c with
  | put key value =>
    cases h
    rfl
  | remove key =>
    rw [change, remove] at h
    split at h
    · cases h
      rfl
    · rename_i habsent
      cases h
      rw [Store.Change.applyTo, KeyMap.erase_of_not_contains (Bool.eq_false_iff.2 habsent)]

/-- What has nothing to write does nothing. -/
theorem change_of_not_writes (h : s.writes c = false) (disk : Disk) (hindrance : Option Error) :
    s.change disk hindrance c = (s, disk, .ok ()) := by
  cases c with
  | put => cases h
  | remove key => exact if_neg (Bool.eq_false_iff.1 h)

/-- After a change that was answered without an error the file is up to date if it was written, or
was up to date before. -/
theorem opened_change_iff (hpath : s.path = path) (hs : s.values.Ordered)
    (h : s.change disk hindrance c = (s', disk', .ok ())) :
    opened disk' path = .ok s' ↔ s.writes c = true ∨ opened disk path = .ok s := by
  subst hpath
  rcases change_cases hs h with ⟨hwrites, rfl, rfl, _, _⟩ | ⟨hwrites, _, hfile⟩
  · simp [hwrites]
  · simp [hwrites, hfile]

/-! ## A course of changes -/

theorem after_concat (m : KeyMap) (history : List Entry) (e : Entry) :
    after m (history ++ [e]) = e.change.applyTo (after m history) := by
  rw [after, List.foldl_append]
  rfl

/-- Memory has all changes. -/
theorem Handled.served (h : Handled path m history s disk) :
    s = ⟨path, after m history⟩ ∧ s.values.Ordered := by
  induction h with
  | start hopened => exact ⟨rfl, (ordered_of_opened hopened).2⟩
  | @change _ _ _ _ _ _ c _ _ hchange _ ih =>
    obtain ⟨rfl, hs⟩ := ih
    rw [served_of_change hchange, after_concat]
    exact ⟨rfl, Store.ordered_applyTo hs c⟩
  | meanwhile _ _ _ ih => exact ih

/-- The file has the changes up to the last one that was written. -/
theorem Handled.account (h : Handled path m history s disk) :
    ∃ front back, history = front ++ back ∧ (∀ e ∈ back, ¬e.Written) ∧
      opened disk path = .ok ⟨path, after m front⟩ := by
  induction h with
  | start hopened => exact ⟨[], [], rfl, fun _ he => (nomatch he), hopened⟩
  | @change history s s' disk disk' hindrance c result hbefore hchange hunwritten ih =>
    obtain ⟨front, back, hsplit, hback, hfile⟩ := ih
    obtain ⟨hs, hordered⟩ := hbefore.served
    by_cases hwritten : (⟨c, s.writes c, result⟩ : Entry).Written
    · obtain ⟨hwrites, rfl⟩ : s.writes c = true ∧ result = .ok () := hwritten
      have hnow := (opened_change_iff (by rw [hs]) hordered hchange).2 (.inl hwrites)
      refine ⟨_, [], (List.append_nil _).symm, fun _ he => (nomatch he), ?_⟩
      rw [hnow, (hbefore.change hchange hunwritten).served.1]
    · -- The file is not written, so the change joins those that are not in it.
      have hsame : opened disk' path = opened disk path := by
        by_cases hok : result = .ok ()
        · have hidle : s.writes c = false := Bool.eq_false_iff.2 fun hw => hwritten ⟨hw, hok⟩
          rw [change_of_not_writes hidle] at hchange
          cases hchange
          rfl
        · exact hunwritten hok
      refine ⟨front, back ++ [⟨c, s.writes c, result⟩], ?_, ?_, hsame.trans hfile⟩
      · rw [hsplit, List.append_assoc]
      · exact List.forall_mem_append.2 ⟨hback, List.forall_mem_singleton.2 hwritten⟩
  | meanwhile _ _ hsame ih =>
    obtain ⟨front, back, hsplit, hback, hfile⟩ := ih
    exact ⟨front, back, hsplit, hback, hsame.trans hfile⟩

/-- If nothing has failed since the file was last written, it is up to date. -/
theorem Handled.upToDate (h : Handled path m history s disk)
    (hgood : GoodSince (·.result = .ok ()) Entry.Written history) : opened disk path = .ok s := by
  induction h with
  | start hopened => exact hopened
  | change hbefore hchange _ ih =>
    obtain ⟨rfl, hsince⟩ := goodSince_concat hgood
    obtain ⟨hs, hordered⟩ := hbefore.served
    refine (opened_change_iff (by rw [hs]) hordered hchange).2 ?_
    exact hsince.imp (fun hwritten => hwritten.1) ih
  | meanwhile _ _ hsame ih => exact hsame.trans (ih hgood)

end

/-- After an answer without an error the file has what the store serves, unless the change removes a
key that is missing in memory. That writes nothing and leaves the file up to date if it was so; and it
was, if nothing has failed since the file was last written. Otherwise the file has the changes up to
then, and memory has all of them. -/
theorem acknowledged_changes {path : String} {m : KeyMap} {history : List Entry} {s : FileStore}
    {disk : Disk} (h : Handled path m history s disk) :
    (∀ hindrance c s' disk', s.change disk hindrance c = (s', disk', .ok ()) →
      (opened disk' path = .ok s' ↔ s.writes c = true ∨ opened disk path = .ok s)) ∧
    (∀ hindrance c, s.writes c = false → s.change disk hindrance c = (s, disk, .ok ())) ∧
    (GoodSince (·.result = .ok ()) Entry.Written history → opened disk path = .ok s) ∧
    s = ⟨path, after m history⟩ ∧
    ∃ front back, history = front ++ back ∧ (∀ e ∈ back, ¬e.Written) ∧
      opened disk path = .ok ⟨path, after m front⟩ := by
  obtain ⟨hs, hordered⟩ := h.served
  refine ⟨fun hindrance c s' disk' hchange => ?_, fun hindrance c hidle => ?_, h.upToDate, hs,
    h.account⟩
  · exact opened_change_iff (by rw [hs]) hordered hchange
  · exact change_of_not_writes hidle disk hindrance

/-- A key is to be removed, and the file cannot be written. Another key is put, which brings the file
up to date; then the key is removed again, with nothing to do. -/
theorem acknowledged_changes_after_failed_remove :
    let refused : Error := .store (.refused .flush "k")
    let history : List Entry := [⟨.put "k" "v", true, .ok ()⟩,
      ⟨.remove "k", true, .error refused⟩, ⟨.put "j" "w", true, .ok ()⟩]
    let s : FileStore := ⟨"s", ⟨[("j", "w")]⟩⟩
    ∃ disk, Handled "s" .empty history s disk ∧
      s.change disk none (.remove "k") = (s, disk, .ok ()) ∧ opened disk "s" = .ok s := by
  intro refused history s
  let file (entries : List (String × String)) : FileStore := ⟨"s", ⟨entries⟩⟩
  let disk (m : KeyMap) : Disk := ⟨[(["s"], .file (some m.text))], []⟩
  have hput : (file []).change .empty none (.put "k" "v") =
      (file [("k", "v")], disk ⟨[("k", "v")]⟩, .ok ()) := by decide +kernel
  have htake : (file [("k", "v")]).change (disk ⟨[("k", "v")]⟩) (some refused) (.remove "k") =
      (file [], disk ⟨[("k", "v")]⟩, .error refused) := by decide +kernel
  have hother : (file []).change (disk ⟨[("k", "v")]⟩) none (.put "j" "w") =
      (s, disk s.values, .ok ()) := by decide +kernel
  have hstart : Handled "s" .empty [] (file []) .empty := .start (by decide +kernel)
  have hhandled : Handled "s" .empty history s (disk s.values) :=
    ((hstart.change hput fun hno => absurd rfl hno).change htake fun _ => rfl).change hother
      fun hno => absurd rfl hno
  obtain ⟨_, hidle, hsince, _⟩ := acknowledged_changes hhandled
  refine ⟨_, hhandled, hidle none _ (by decide), hsince ⟨history.take 2, history.drop 2, rfl, ?_, ?_⟩⟩
  · exact List.forall_mem_singleton.2 rfl
  · exact .inr ⟨_, List.mem_singleton_self _, rfl, rfl⟩

/-- A directory stands where the sibling of the file is written when a key is to be removed. When the
directory is gone the key is removed again, without an error, and the file still has it. -/
theorem retried_remove_unwritten :
    let blocked : Error := .store (.unwritable "s.tmp" .isDirectory)
    let history : List Entry := [⟨.put "k" "v", true, .ok ()⟩,
      ⟨.remove "k", true, .error blocked⟩, ⟨.remove "k", false, .ok ()⟩]
    let s : FileStore := ⟨"s", .empty⟩
    ∃ disk, Handled "s" .empty history s disk ∧ s.get? "k" = none ∧
      opened disk "s" = .ok ⟨"s", ⟨[("k", "v")]⟩⟩ := by
  intro blocked history s
  let full : FileStore := ⟨"s", ⟨[("k", "v")]⟩⟩
  let disk : Disk := ⟨[(["s"], .file (some full.values.text))], []⟩
  let inTheWay : Disk := (disk.makeDirectories "s.tmp").1
  have hput : s.change .empty none (.put "k" "v") = (full, disk, .ok ()) := by decide +kernel
  have htake : full.change inTheWay none (.remove "k") = (s, inTheWay, .error blocked) := by
    decide +kernel
  have hagain : s.change disk none (.remove "k") = (s, disk, .ok ()) := by decide +kernel
  have hmade : opened inTheWay "s" = opened disk "s" := by decide +kernel
  have hstart : Handled "s" .empty [] s .empty := .start (by decide +kernel)
  have hblocked := ((hstart.change hput fun hno => absurd rfl hno).meanwhile inTheWay hmade).change
    htake fun _ => rfl
  have hhandled : Handled "s" .empty history s disk :=
    (hblocked.meanwhile disk hmade.symm).change hagain fun hno => absurd rfl hno
  exact ⟨disk, hhandled, by decide, by decide +kernel⟩

end FileStore
end ResolverRace
