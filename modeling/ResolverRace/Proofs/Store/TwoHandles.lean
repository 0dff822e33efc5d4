import Mathlib.Data.List.Induction
import ResolverRace.Proofs.Store.File

/-!
# Two stores of one file

A file store writes all values that it serves, and it does not look at the file again after it was
opened. When two stores of one file are open, each write replaces what the other one has written
since both were open: after any calls the file holds the values of the store that wrote it last.

* `FileStore.Alone`, `FileStore.Together` — one store of a file with its changes, and a second one
  that is opened then, with the calls of both.
* `left` — what some changes leave under a key.
* `together_file` — which values the file holds; `two_handles`, key by key.
* `other_update_erased` — a change that is erased.
-/

namespace ResolverRace
namespace FileStore

/-- A put or a remove, which a hindrance may keep from writing the file. -/
def change (s : FileStore) (disk : Disk) (hindrance : Option Error) :
    Store.Change → FileStore × Disk × Except Error Unit
  | .put key value => s.put disk key value hindrance
  | .remove key => s.remove disk key hindrance

/-- Whether a change writes the file: it does unless it removes a key that is not there. -/
def writes (s : FileStore) : Store.Change → Bool
  | .put .. => true
  | .remove key => s.values.contains key

/-- The two who have opened a store of the file. The first one has opened it earlier. -/
inductive Party where
  | first
  | second
  deriving DecidableEq

/-- A change that one of the two has made, and whether it has written the file. -/
structure Call where
  party : Party
  change : Store.Change
  wrote : Bool

/-- The disk, and the stores of the two. -/
structure Shared where
  disk : Disk
  handle : Party → FileStore

namespace Shared

/-- One of the two makes a change. -/
def call (t : Shared) (w : Party) (hindrance : Option Error) (c : Store.Change) :
    Shared × Except Error Unit :=
  let (s, disk, result) := (t.handle w).change t.disk hindrance c
  (⟨disk, Function.update t.handle w s⟩, result)

end Shared

/-- A store that was opened, and the changes made since, all without an error. -/
inductive Alone (path : String) (disk : Disk) : List Store.Change → FileStore → Disk → Prop where
  | start {s : FileStore} : opened disk path = .ok s → Alone path disk [] s disk
  | change {changes : List Store.Change} {c : Store.Change} {s s' : FileStore} {now later : Disk}
      {hindrance : Option Error} : Alone path disk changes s now →
      s.change now hindrance c = (s', later, .ok ()) →
      Alone path disk (changes ++ [c]) s' later

/-- A second store of the file is opened after some changes, and then both make changes in any
order, all without an error. -/
inductive Together (path : String) (disk : Disk) (before : List Store.Change) :
    List Call → Shared → Prop where
  | join {s s' : FileStore} {now : Disk} : Alone path disk before s now →
      opened now path = .ok s' →
      Together path disk before [] ⟨now, fun | .first => s | .second => s'⟩
  | call {calls : List Call} {t : Shared} (w : Party) (hindrance : Option Error)
      (c : Store.Change) : Together path disk before calls t →
      (t.call w hindrance c).2 = .ok () →
      Together path disk before (calls ++ [⟨w, c, (t.handle w).writes c⟩])
        (t.call w hindrance c).1

/-- The changes of one of the two. -/
def changesBy (w : Party) (calls : List Call) : List Store.Change :=
  (calls.filter (·.party = w)).map (·.change)

/-- Who has written the file last. -/
def writer? (calls : List Call) : Option Party :=
  ((calls.filter (·.wrote)).getLast?).map (·.party)

/-- What some changes leave under a key: the last one of the key decides, and without one the value
stays that was there. -/
def left (m : KeyMap) (changes : List Store.Change) (key : String) : Option String :=
  match (changes.filter (·.key = key)).getLast? with
  | some c => c.value?
  | none => m.get? key

/-- No key is changed by both. -/
def Separate (calls : List Call) : Prop :=
  ∀ c ∈ calls, ∀ d ∈ calls, c.party ≠ d.party → c.change.key ≠ d.change.key

instance (calls : List Call) : Decidable (Separate calls) :=
  inferInstanceAs (Decidable (∀ c ∈ calls, ∀ d ∈ calls, _ → _))

section

variable {path key : String} {disk now later : Disk} {m : KeyMap} {s s' : FileStore}
  {c : Store.Change} {changes before : List Store.Change} {calls : List Call} {t : Shared}
  {hindrance : Option Error}

/-! ## What changes leave -/

theorem left_concat (m : KeyMap) (changes : List Store.Change) (c : Store.Change) (key : String) :
    left m (changes ++ [c]) key = if key = c.key then c.value? else left m changes key := by
  rw [left, List.filter_append]
  by_cases hkey : c.key = key
  · simp [hkey]
  · simp [hkey, Ne.symm hkey, left]

/-- Only the changes of the key matter. -/
theorem left_congr {changes' : List Store.Change}
    (h : changes.filter (·.key = key) = changes'.filter (·.key = key)) :
    left m changes key = left m changes' key := by
  rw [left, left, h]

theorem filter_changesBy {w : Party}
    (h : ∀ call ∈ calls, call.party ≠ w → call.change.key ≠ key) :
    (changesBy w calls).filter (·.key = key) = (calls.map (·.change)).filter (·.key = key) := by
  rw [changesBy, List.filter_map, List.filter_map, List.filter_filter]
  refine congrArg _ (List.filter_congr fun call hcall => ?_)
  by_cases hparty : call.party = w
  · simp [hparty]
  · simp [hparty, h call hcall hparty]

/-- Of a key that nobody else has changed, one's own changes are all. -/
theorem left_changesBy {w : Party} (h : ∀ call ∈ calls, call.party ≠ w → call.change.key ≠ key) :
    left m (before ++ changesBy w calls) key = left m (before ++ calls.map (·.change)) key := by
  refine left_congr ?_
  rw [List.filter_append, List.filter_append, filter_changesBy h]

/-! ## One change -/

/-- A change that is made without an error writes the file with all values, or has nothing to do. -/
theorem change_cases (hs : s.values.Ordered)
    (h : s.change disk hindrance c = (s', later, .ok ())) :
    (s.writes c = false ∧ s' = s ∧ later = disk ∧ c.value? = none ∧ s.values.get? c.key = none) ∨
      (s.writes c = true ∧ s' = ⟨s.path, c.applyTo s.values⟩ ∧ opened later s.path = .ok s') := by
  cases c with
  | put key value =>
    exact .inr ⟨rfl, opened_of_replace (hs.insert key value) h⟩
  | remove key =>
    cases hcontains : s.values.contains key with
    | true =>
      rw [change, remove, if_pos hcontains] at h
      exact .inr ⟨hcontains, opened_of_replace (hs.erase key) h⟩
    | false =>
      rw [change, remove, if_neg (Bool.eq_false_iff.1 hcontains)] at h
      cases h
      exact .inl ⟨hcontains, rfl, rfl, rfl,
        Option.not_isSome_iff_eq_none.1 (Bool.eq_false_iff.1 hcontains)⟩

/-- The values that a store serves, after some changes of what the file held. -/
structure Serves (path : String) (m : KeyMap) (changes : List Store.Change) (s : FileStore) :
    Prop where
  path_eq : s.path = path
  ordered : s.values.Ordered
  values : ∀ key, s.values.get? key = left m changes key

theorem Serves.change (hs : s.Serves path m changes)
    (h : s.change disk hindrance c = (s', later, .ok ())) : s'.Serves path m (changes ++ [c]) := by
  rcases change_cases hs.ordered h with ⟨_, rfl, _, hvalue, hnone⟩ | ⟨_, rfl, _⟩
  · refine ⟨hs.path_eq, hs.ordered, fun key => ?_⟩
    rw [left_concat]
    split
    · rename_i hkey
      rw [hkey, hvalue, hnone]
    · exact hs.values key
  · refine ⟨hs.path_eq, Store.ordered_applyTo hs.ordered c, fun key => ?_⟩
    rw [left_concat, c.get?_applyTo, hs.values key]

/-- A store that is alone has the values of its file. -/
theorem Alone.file (h : Alone path disk changes s now) (hm : opened disk path = .ok ⟨path, m⟩) :
    s.Serves path m changes ∧ opened now path = .ok s := by
  induction h with
  | start hopened =>
    obtain rfl := Except.ok.inj (hopened.symm.trans hm)
    exact ⟨⟨rfl, (ordered_of_opened hm).2, fun key => rfl⟩, hm⟩
  | change _ hchange ih =>
    obtain ⟨hserves, hopened⟩ := ih
    refine ⟨hserves.change hchange, ?_⟩
    rcases change_cases hserves.ordered hchange with ⟨_, rfl, rfl, _, _⟩ | ⟨_, _, hnow⟩
    · exact hopened
    · rw [hserves.path_eq] at hnow
      exact hnow

/-! ## The calls of both -/

theorem changesBy_concat (w u : Party) (calls : List Call) (c : Store.Change) (wrote : Bool) :
    changesBy w (calls ++ [⟨u, c, wrote⟩]) =
      if u = w then changesBy w calls ++ [c] else changesBy w calls := by
  rw [changesBy, List.filter_append, List.map_append]
  by_cases hw : u = w
  · simp [hw, changesBy]
  · simp [hw, changesBy]

theorem writer?_concat (calls : List Call) (w : Party) (c : Store.Change) (wrote : Bool) :
    writer? (calls ++ [⟨w, c, wrote⟩]) = if wrote then some w else writer? calls := by
  rw [writer?, List.filter_append]
  cases wrote with
  | true => simp
  | false => simp [writer?]

/-- Each of the two serves what was there when both were open, with its own changes; and the file
has the values of the one who has written it last, or of both if none has. -/
theorem Together.file (h : Together path disk before calls t)
    (hm : opened disk path = .ok ⟨path, m⟩) :
    (∀ w, (t.handle w).Serves path m (before ++ changesBy w calls)) ∧
      ∀ w, writer? calls = some w ∨ writer? calls = none →
        opened t.disk path = .ok (t.handle w) := by
  induction h with
  | join halone hopened =>
    obtain ⟨hserves, hfile⟩ := halone.file hm
    obtain rfl := Except.ok.inj (hfile.symm.trans hopened)
    have hboth : before ++ changesBy .first [] = before := List.append_nil _
    refine ⟨fun w => ?_, fun w _ => ?_⟩
    · cases w <;> exact hboth.symm ▸ hserves
    · cases w <;> exact hfile
  | @call calls t u hindrance c _ hok ih =>
    obtain ⟨hserves, hfile⟩ := ih
    obtain ⟨s, later, result, hchange⟩ : ∃ s later result,
        (t.handle u).change t.disk hindrance c = (s, later, result) := ⟨_, _, _, rfl⟩
    simp only [Shared.call, hchange] at hok ⊢
    subst hok
    refine ⟨fun w => ?_, fun w hw => ?_⟩
    · rw [changesBy_concat]
      by_cases hu : u = w
      · subst hu
        rw [if_pos rfl, ← List.append_assoc]
        show Serves path m _ (Function.update t.handle u s u)
        rw [Function.update_self]
        exact (hserves u).change hchange
      · rw [if_neg hu, Function.update_of_ne (Ne.symm hu)]
        exact hserves w
    · -- What writes nothing leaves the store and the disk, and the last writer is who it was.
      rw [writer?_concat] at hw
      rcases change_cases (hserves u).ordered hchange with
        ⟨hwrote, rfl, rfl, _, _⟩ | ⟨hwrote, _, hnow⟩
      · rw [hwrote] at hw
        rw [Function.update_eq_self]
        exact hfile w hw
      · rw [hwrote] at hw
        have hwriter : u = w := by simpa using hw
        subst hwriter
        rw [Function.update_self, ← (hserves u).path_eq]
        exact hnow

/-- The file has the values of the store that has written it last. -/
theorem together_file (h : Together path disk before calls t)
    (hm : opened disk path = .ok ⟨path, m⟩) :
    ∃ now : KeyMap, opened t.disk path = .ok ⟨path, now⟩ ∧
      ∀ w, writer? calls = some w ∨ writer? calls = none →
        ∀ key, now.get? key = left m (before ++ changesBy w calls) key := by
  obtain ⟨hserves, hfile⟩ := h.file hm
  obtain ⟨u, hu⟩ : ∃ u, writer? calls = some u ∨ writer? calls = none := by
    cases writer? calls with
    | none => exact ⟨.first, .inr rfl⟩
    | some u => exact ⟨u, .inl rfl⟩
  refine ⟨(t.handle u).values, by rw [hfile u hu, ← (hserves u).path_eq], fun w hw => ?_⟩
  have hsame : t.handle u = t.handle w := Except.ok.inj ((hfile u hu).symm.trans (hfile w hw))
  rw [hsame]
  exact (hserves w).values

end

/-- Two stores of one file are open, each of which changes keys that the other one does not change.
The file holds what the last change of each key has left, but for the keys that were changed, since
both were open, by the one who has not written the file last: these are as they were when the second
store was opened. -/
theorem two_handles {path : String} {disk : Disk} {m : KeyMap} {before : List Store.Change}
    {calls : List Call} {t : Shared} (hm : opened disk path = .ok ⟨path, m⟩)
    (h : Together path disk before calls t) (hseparate : Separate calls) :
    ∃ now : KeyMap, opened t.disk path = .ok ⟨path, now⟩ ∧
      (writer? calls = none →
        ∀ key, now.get? key = left m (before ++ calls.map (·.change)) key) ∧
      ∀ w, writer? calls = some w → ∀ key,
        ((∀ call ∈ calls, call.party ≠ w → call.change.key ≠ key) →
          now.get? key = left m (before ++ calls.map (·.change)) key) ∧
        ((∃ call ∈ calls, call.party ≠ w ∧ call.change.key = key) →
          now.get? key = left m before key) := by
  obtain ⟨now, hnow, hvalues⟩ := together_file h hm
  refine ⟨now, hnow, fun hnone key => ?_, fun w hw key => ⟨fun hown => ?_, ?_⟩⟩
  · -- Nobody has written, so the view of the one who has changed the key will do.
    by_cases hfirst : ∃ call ∈ calls, call.party = .first ∧ call.change.key = key
    · obtain ⟨call, hcall, hparty, hkey⟩ := hfirst
      rw [hvalues .first (.inr hnone)]
      refine left_changesBy fun other hother hne he => ?_
      exact hseparate call hcall other hother (fun heq => hne (heq ▸ hparty)) (hkey.trans he.symm)
    · rw [hvalues .second (.inr hnone)]
      refine left_changesBy fun other hother hne he => hfirst ⟨other, hother, ?_, he⟩
      cases hparty : other.party with
      | first => rfl
      | second => exact absurd hparty hne
  · rw [hvalues w (.inl hw), left_changesBy hown]
  · rintro ⟨other, hother, hne, hkey⟩
    rw [hvalues w (.inl hw)]
    refine left_congr ?_
    have hnone : (changesBy w calls).filter (·.key = key) = [] := by
      refine List.filter_eq_nil_iff.2 fun c hc => ?_
      obtain ⟨call, hcall, rfl⟩ := List.mem_map.1 hc
      obtain ⟨hcall, hparty⟩ := List.mem_filter.1 hcall
      have hparty : call.party = w := by simpa using hparty
      have hother' := hseparate call hcall other hother fun heq => hne (heq ▸ hparty)
      simpa [hkey] using hother'
    rw [List.filter_append, hnone, List.append_nil]

/-- A store has put lists into its file when a second one is opened, which puts demotions there.
Then the first one puts a source. The file has the lists and the source. -/
theorem two_handles_after_lists :
    let lists : Store.Change := .put Store.listsKey "[]"
    let calls : List Call := [⟨.second, .put Store.demotedKey "[]", true⟩,
      ⟨.first, .put Store.sourceKey "builtin", true⟩]
    ∃ t now, Together "s" .empty [lists] calls t ∧ Separate calls ∧
      opened t.disk "s" = .ok ⟨"s", now⟩ ∧ now.get? Store.listsKey = some "[]" ∧
      now.get? Store.sourceKey = some "builtin" ∧ now.get? Store.demotedKey = none := by
  intro lists calls
  let file : FileStore := ⟨"s", .empty⟩
  have hfile : opened .empty "s" = .ok file := by decide +kernel
  have hlists : (file.change .empty none lists).2.2 = .ok () := by decide +kernel
  have halone : Alone "s" .empty [lists] (file.change .empty none lists).1
      (file.change .empty none lists).2.1 :=
    .change (.start hfile) (Prod.ext rfl (Prod.ext rfl hlists))
  have hjoined := Together.join halone (halone.file hfile).2
  have hdemoted := hjoined.call .second none (.put Store.demotedKey "[]") (by decide +kernel)
  have hsource := hdemoted.call .first none (.put Store.sourceKey "builtin") (by decide +kernel)
  have hseparate : Separate calls := by decide
  obtain ⟨now, hnow, _, hkeys⟩ := two_handles hfile hsource hseparate
  refine ⟨_, now, hsource, hseparate, hnow, ?_, ?_, ?_⟩
  · exact (hkeys .first rfl Store.listsKey).1 (by decide)
  · exact (hkeys .first rfl Store.sourceKey).1 (by decide)
  · exact (hkeys .first rfl Store.demotedKey).2 (by decide)

/-- Two stores of a file that is not there yet are opened. The second one puts lists and the first
one puts a last winner, both without an error. The last change of the lists has put some, but the
file has none. -/
theorem other_update_erased :
    let lists : Store.Change := .put Store.listsKey "[]"
    let calls : List Call := [⟨.second, lists, true⟩,
      ⟨.first, .put Store.lastKey "one:53", true⟩]
    ∃ t now, opened .empty "s" = .ok ⟨"s", .empty⟩ ∧ Together "s" .empty [] calls t ∧
      Separate calls ∧ left .empty (calls.map (·.change)) Store.listsKey = some "[]" ∧
      opened t.disk "s" = .ok ⟨"s", now⟩ ∧ now.get? Store.listsKey = none := by
  intro lists calls
  let file : FileStore := ⟨"s", .empty⟩
  have hfile : opened .empty "s" = .ok file := by decide +kernel
  have hjoined := Together.join (.start hfile) hfile
  have hlists := hjoined.call .second none lists (by decide +kernel)
  have hlast := hlists.call .first none (.put Store.lastKey "one:53") (by decide +kernel)
  obtain ⟨now, hnow, hvalues⟩ := together_file hlast hfile
  exact ⟨_, now, hfile, hlast, by decide, by decide, hnow,
    hvalues .first (.inl rfl) Store.listsKey⟩

end FileStore
end ResolverRace
