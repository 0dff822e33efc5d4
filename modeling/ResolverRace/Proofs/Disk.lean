import ResolverRace.Disk

/-!
# Files are read as they were written

Writing a file, and replacing one file by another, makes and takes away no directory. So a path
means the same place before and after, and the file that is found there is the one that was put
there last. What was written once can be written again, since only directories could be in the way.

* `Disk.Keeps` — a disk that has all directories of another, and the same working directory;
  `Disk.Alike` — one that has no others either.
* `Disk.Names` — the place that a path means for a file, with `Names.keep`.
* `writeText_eq_ok_iff`, `rename_eq_ok_iff` — what writing and replacing do.
* `readText_of_replaced` — a file that was written and then given another path is read there.
* `makeParents_again`, `writeText_again`, `rename_again` — doing it again.
-/

namespace ResolverRace
namespace Disk

theorem bind_eq_ok {ε α β : Type} {x : Except ε α} {f : α → Except ε β} {b : β}
    (h : x >>= f = .ok b) : ∃ a, x = .ok a ∧ f a = .ok b := by
  cases x with
  | error e => cases h
  | ok a => exact ⟨a, rfl, h⟩

/-- Every directory of the one disk is one of the other, and paths start at the same places. -/
structure Keeps (d d' : Disk) : Prop where
  home : d'.home = d.home
  directory : ∀ place, d.node? place = some .directory → d'.node? place = some .directory

theorem Keeps.trans {d d' d'' : Disk} (h : d.Keeps d') (h' : d'.Keeps d'') : d.Keeps d'' :=
  ⟨h'.home.trans h.home, fun place hp => h'.directory place (h.directory place hp)⟩

/-- Each keeps what the other has: the directories are the same. -/
structure Alike (d e : Disk) : Prop where
  forth : d.Keeps e
  back : e.Keeps d

theorem Alike.refl (d : Disk) : d.Alike d := ⟨⟨rfl, fun _ h => h⟩, ⟨rfl, fun _ h => h⟩⟩

theorem Alike.symm {d e : Disk} (h : d.Alike e) : e.Alike d := ⟨h.back, h.forth⟩

theorem Alike.trans {d e f : Disk} (h : d.Alike e) (h' : e.Alike f) : d.Alike f :=
  ⟨h.forth.trans h'.forth, h'.back.trans h.back⟩

/-- The path means this place for a file: a name that can be held by a directory, in the directory
before it. -/
def Names (d : Disk) (path : String) (place : Place) : Prop :=
  ∃ start here name, d.start path = .ok start ∧ d.above start (names path) = .ok (here, some name) ∧
    d.step here name = .ok place

section

variable {d d' : Disk} {path : String} {here place place' : Place} {name : String}

/-! ## What a path means -/

theorem checkDirectory_ok : d.checkDirectory here = .ok () ↔ d.node? here = some .directory := by
  rw [checkDirectory]
  split <;> simp_all

theorem step_eq_ok (h : d.step here name = .ok place) :
    d.node? here = some .directory ∧
      ∀ e : Disk, e.node? here = some .directory → e.step here name = .ok place := by
  obtain ⟨_, hcheck, hname⟩ := bind_eq_ok h
  refine ⟨checkDirectory_ok.1 hcheck, fun e he => ?_⟩
  rw [step, checkDirectory_ok.2 he]
  exact hname

theorem Keeps.step (hk : d.Keeps d') (h : d.step here name = .ok place) :
    d'.step here name = .ok place := by
  obtain ⟨hhere, hstep⟩ := step_eq_ok h
  exact hstep d' (hk.directory here hhere)

theorem Keeps.walk (hk : d.Keeps d') {names : List String} (h : d.walk here names = .ok place) :
    d'.walk here names = .ok place := by
  induction names generalizing here with
  | nil => exact h
  | cons name rest ih =>
    obtain ⟨next, hnext, hrest⟩ := bind_eq_ok h
    rw [Disk.walk, hk.step hnext]
    exact ih hrest

theorem Keeps.start (hk : d.Keeps d') (path : String) : d'.start path = d.start path := by
  simp only [Disk.start, root, hk.home]

theorem above_eq_ok {names : List String} {entry : Option String}
    (h : d.above here names = .ok (place, entry)) :
    d.walk here names.dropLast = .ok place ∧ d.node? place = some .directory ∧
      entry = names.getLast?.filter fun name => name ≠ "." && name ≠ ".." := by
  obtain ⟨there, hwalk, h⟩ := bind_eq_ok h
  obtain ⟨_, hcheck, h⟩ := bind_eq_ok h
  cases h
  exact ⟨hwalk, checkDirectory_ok.1 hcheck, rfl⟩

theorem Keeps.above (hk : d.Keeps d') {names : List String} {entry : Option String}
    (h : d.above here names = .ok (place, entry)) : d'.above here names = .ok (place, entry) := by
  obtain ⟨hwalk, hdirectory, rfl⟩ := above_eq_ok h
  rw [Disk.above, hk.walk hwalk]
  show d'.checkDirectory place >>= _ = _
  rw [checkDirectory_ok.2 (hk.directory place hdirectory)]
  rfl

theorem Names.keep (h : d.Names path place) (hk : d.Keeps d') : d'.Names path place := by
  obtain ⟨start, here, name, hstart, habove, hstep⟩ := h
  exact ⟨start, here, name, (hk.start path).trans hstart, hk.above habove, hk.step hstep⟩

theorem Names.unique (h : d.Names path place) (h' : d.Names path place') : place = place' := by
  obtain ⟨start, here, name, hstart, habove, hstep⟩ := h
  obtain ⟨start', here', name', hstart', habove', hstep'⟩ := h'
  obtain rfl : start = start' := Except.ok.inj (hstart.symm.trans hstart')
  cases habove.symm.trans habove'
  exact Except.ok.inj (hstep.symm.trans hstep')

theorem walk_append (d : Disk) (here : Place) (front back : List String) :
    d.walk here (front ++ back) = d.walk here front >>= fun place => d.walk place back := by
  induction front generalizing here with
  | nil => rfl
  | cons name rest ih =>
    rw [List.cons_append, walk, walk]
    cases d.step here name with
    | error e => rfl
    | ok next => exact ih next

theorem walk_concat (d : Disk) (here : Place) (front : List String) (name : String) :
    d.walk here (front ++ [name]) = d.walk here front >>= fun place => d.step place name := by
  rw [walk_append]
  refine congrArg _ (funext fun place => ?_)
  rw [walk]
  cases d.step place name <;> rfl

/-- The names lead to the directory above, and the last one leads on from there. -/
theorem walk_of_above {start : Place} {names : List String}
    (habove : d.above start names = .ok (here, some name)) (hstep : d.step here name = .ok place) :
    d.walk start names = .ok place := by
  obtain ⟨hwalk, _, hname⟩ := above_eq_ok habove
  obtain ⟨hlast, _⟩ := Option.filter_eq_some_iff.1 hname.symm
  obtain ⟨front, hsplit⟩ := List.getLast?_eq_some_iff.1 hlast
  rw [hsplit, List.dropLast_concat] at hwalk
  rw [hsplit, walk_concat, hwalk]
  exact hstep

/-- A path that means a place for a file leads there. -/
theorem Names.locate (h : d.Names path place) : d.locate path = .ok place := by
  obtain ⟨start, here, name, hstart, habove, hstep⟩ := h
  rw [Disk.locate, hstart]
  exact walk_of_above habove hstep

theorem ne_nil_of_step (h : d.step here name = .ok place) (hdot : name ≠ ".") (hup : name ≠ "..") :
    place ≠ [] := by
  obtain ⟨_, _, h⟩ := bind_eq_ok h
  rw [if_neg hdot, if_neg hup] at h
  split at h
  · cases h
  · cases h
    simp

theorem ne_nil_of_above {start : Place} {names : List String}
    (habove : d.above start names = .ok (here, some name)) (hstep : d.step here name = .ok place) :
    place ≠ [] := by
  obtain ⟨_, _, hname⟩ := above_eq_ok habove
  obtain ⟨_, hplain⟩ := Option.filter_eq_some_iff.1 hname.symm
  simp only [Bool.and_eq_true, decide_eq_true_eq] at hplain
  exact ne_nil_of_step hstep hplain.1 hplain.2

theorem Names.ne_nil (h : d.Names path place) : place ≠ [] := by
  obtain ⟨_, _, _, _, habove, hstep⟩ := h
  exact ne_nil_of_above habove hstep

/-! ## Changes -/

/-- What takes the place of no directory leaves all of them. -/
theorem keeps_set {node : Node} (h : d.node? place ≠ some .directory) :
    d.Keeps (d.set place node) := by
  refine ⟨rfl, fun other hother => ?_⟩
  by_cases hnil : other = []
  · rw [hnil]
    rfl
  · rw [node?_set d hnil, if_neg]
    · exact hother
    · rintro rfl
      exact h hother

theorem keeps_unlink (h : d.node? place ≠ some .directory) : d.Keeps (d.unlink place) := by
  refine ⟨rfl, fun other hother => ?_⟩
  by_cases hnil : other = []
  · rw [hnil]
    rfl
  · rw [node?_unlink d hnil, if_neg]
    · exact hother
    · rintro rfl
      exact h hother

theorem alike_set {content : Option String} (h : d.node? place ≠ some .directory) :
    d.Alike (d.set place (.file content)) := by
  refine ⟨keeps_set h, rfl, fun other hother => ?_⟩
  by_cases hnil : other = []
  · rw [hnil]
    rfl
  · rw [node?_set d hnil] at hother
    split at hother
    · cases hother
    · exact hother

theorem alike_unlink (h : d.node? place ≠ some .directory) : d.Alike (d.unlink place) := by
  refine ⟨keeps_unlink h, rfl, fun other hother => ?_⟩
  by_cases hnil : other = []
  · rw [hnil]
    rfl
  · rw [node?_unlink d hnil] at hother
    split at hother
    · cases hother
    · exact hother

/-- A file is written where its path means a place that is no directory. -/
theorem writeText_eq_ok_iff {text : String} : d.writeText path text = .ok d' ↔
    ∃ place, d.Names path place ∧ endsInSlash path = false ∧ d.node? place ≠ some .directory ∧
      d' = d.set place (.file (some text)) := by
  constructor
  · intro h
    obtain ⟨start, hstart, h⟩ := bind_eq_ok h
    obtain ⟨⟨here, _ | name⟩, habove, h⟩ := bind_eq_ok h
    · cases h
    dsimp only at h
    split at h
    · cases h
    · rename_i hslash
      obtain ⟨place, hstep, h⟩ := bind_eq_ok h
      refine ⟨place, ⟨start, here, name, hstart, habove, hstep⟩, Bool.eq_false_iff.2 hslash, ?_⟩
      split at h
      · cases h
      · rename_i hfree
        cases h
        exact ⟨fun hd => hfree hd, rfl⟩
  · rintro ⟨place, ⟨start, here, name, hstart, habove, hstep⟩, hslash, hfree, rfl⟩
    simp only [writeText, writeNode, hstart, habove, hslash, hstep, bind, Except.bind,
      Bool.false_eq_true, ↓reduceIte]

/-- A file or directory is given a path that means a place which is no directory. -/
theorem rename_eq_ok_iff {source target : String} : d.rename source target = .ok d' ↔
    ∃ place node there, d.Names source place ∧ d.node? place = some node ∧
      d.Names target there ∧ endsInSlash target = false ∧ d.node? there ≠ some .directory ∧
      d' = (d.unlink place).set there node := by
  constructor
  · intro h
    obtain ⟨start, hstart, h⟩ := bind_eq_ok h
    obtain ⟨⟨here, _ | old⟩, habove, h⟩ := bind_eq_ok h
    · obtain ⟨_, _, h⟩ := bind_eq_ok h
      obtain ⟨_, _, h⟩ := bind_eq_ok h
      cases h
    obtain ⟨start', hstart', h⟩ := bind_eq_ok h
    obtain ⟨⟨here', _ | new⟩, habove', h⟩ := bind_eq_ok h
    · cases h
    obtain ⟨place, hstep, h⟩ := bind_eq_ok h
    split at h
    · cases h
    rename_i node hnode
    obtain ⟨there, hstep', h⟩ := bind_eq_ok h
    split at h
    · cases h
    rename_i hslash
    refine ⟨place, node, there, ⟨start, here, old, hstart, habove, hstep⟩, hnode,
      ⟨start', here', new, hstart', habove', hstep'⟩, Bool.eq_false_iff.2 hslash, ?_⟩
    split at h
    · cases h
    · rename_i hfree
      cases h
      exact ⟨fun hd => hfree hd, rfl⟩
  · rintro ⟨place, node, there, ⟨start, here, old, hstart, habove, hstep⟩, hnode,
      ⟨start', here', new, hstart', habove', hstep'⟩, hslash, hfree, rfl⟩
    simp only [rename, hstart, habove, hstep, hstart', habove', hstep', hnode, hslash, bind,
      Except.bind, Bool.false_eq_true, ↓reduceIte]

theorem writeText_ok {text : String} (h : d.writeText path text = .ok d') :
    ∃ place, d.Names path place ∧ d.Alike d' ∧ d'.node? place = some (.file (some text)) := by
  obtain ⟨place, hnames, _, hfree, rfl⟩ := writeText_eq_ok_iff.1 h
  refine ⟨place, hnames, alike_set hfree, ?_⟩
  rw [node?_set d hnames.ne_nil, if_pos rfl]

/-- A file keeps its text when it is given another path. -/
theorem rename_ok {source target : String} {content : Option String}
    (h : d.rename source target = .ok d') (hsource : d.Names source place)
    (hfile : d.node? place = some (.file content)) :
    ∃ there, d.Names target there ∧ endsInSlash target = false ∧ d.Alike d' ∧
      d'.node? there = some (.file content) := by
  obtain ⟨place', node, there, hsource', hnode, htarget, hslash, hfree, rfl⟩ :=
    rename_eq_ok_iff.1 h
  obtain rfl := hsource.unique hsource'
  obtain rfl := Option.some.inj (hfile.symm.trans hnode)
  have hunlink : d.Alike (d.unlink place) := alike_unlink (by rw [hfile]; simp)
  have hfree' : (d.unlink place).node? there ≠ some .directory :=
    fun hd => hfree (hunlink.back.directory there hd)
  refine ⟨there, htarget, hslash, hunlink.trans (alike_set hfree'), ?_⟩
  rw [node?_set _ htarget.ne_nil, if_pos rfl]

/-- A file that was written and then given another path is read there. -/
theorem readText_of_replaced {source target text : String} {written replaced : Disk}
    (hwrite : d.writeText source text = .ok written)
    (hrename : written.rename source target = .ok replaced) :
    replaced.readText target = .ok text := by
  obtain ⟨place, hsource, halike, hfile⟩ := writeText_ok hwrite
  obtain ⟨there, htarget, hslash, halike', hfile'⟩ :=
    rename_ok hrename (hsource.keep halike.forth) hfile
  simp only [readText, (htarget.keep halike'.forth).locate, bind, Except.bind, hfile', hslash]
  rfl

/-! ## Doing it again -/

/-- Where a text was written, any text can be. -/
theorem writeText_again {e : Disk} {text : String} (h : d.writeText path text = .ok d')
    (halike : d.Alike e) (other : String) : ∃ e', e.writeText path other = .ok e' := by
  obtain ⟨place, hnames, hslash, hfree, _⟩ := writeText_eq_ok_iff.1 h
  exact ⟨_, writeText_eq_ok_iff.2 ⟨place, hnames.keep halike.forth, hslash,
    fun hd => hfree (halike.back.directory place hd), rfl⟩⟩

/-- Where a file was given a path, any file can be given it that has just been written. -/
theorem rename_again {e e' : Disk} {source target text : String}
    (h : d.rename source target = .ok d') (halike : d.Alike e)
    (hwrite : e.writeText source text = .ok e') : ∃ e'', e'.rename source target = .ok e'' := by
  obtain ⟨_, _, there, _, _, htarget, hslash, hfree, _⟩ := rename_eq_ok_iff.1 h
  obtain ⟨place, hsource, halike', hfile⟩ := writeText_ok hwrite
  have hboth := halike.trans halike'
  exact ⟨_, rename_eq_ok_iff.2 ⟨place, _, there, hsource.keep halike'.forth, hfile,
    htarget.keep hboth.forth, hslash, fun hd => hfree (hboth.back.directory there hd), rfl⟩⟩

/-- The names lead to a directory. -/
def Leads (d : Disk) (here : Place) (names : List String) : Prop :=
  ∃ place, d.walk here names = .ok place ∧ d.node? place = some .directory

theorem Leads.keep {names : List String} (h : d.Leads here names) (hk : d.Keeps d') :
    d'.Leads here names := by
  obtain ⟨place, hwalk, hdirectory⟩ := h
  exact ⟨place, hk.walk hwalk, hk.directory place hdirectory⟩

theorem make_ok {names : List String} (h : d.make here names = .ok d') :
    d.Keeps d' ∧ d'.Leads here names := by
  obtain ⟨⟨there, _ | name⟩, habove, h⟩ := bind_eq_ok h
  · cases h
  obtain ⟨place, hstep, h⟩ := bind_eq_ok h
  split at h
  · cases h
  · rename_i hfree
    cases h
    have hkeeps : d.Keeps (d.set place .directory) := by
      refine keeps_set fun hd => ?_
      rw [hd] at hfree
      exact hfree rfl
    refine ⟨hkeeps, place, hkeeps.walk (walk_of_above habove hstep), ?_⟩
    rw [node?_set d (ne_nil_of_above habove hstep), if_pos rfl]

theorem ensure_ok {names : List String} (h : d.ensure here names = (d', .ok ())) :
    d.Keeps d' ∧ d'.Leads here names := by
  rw [ensure] at h
  split at h
  · rename_i hmake
    cases h
    exact make_ok hmake
  · simp only [Prod.mk.injEq] at h
    obtain ⟨rfl, hexcuse⟩ := h
    rw [excuse] at hexcuse
    split at hexcuse
    · rename_i place hwalk
      split at hexcuse
      · rename_i hdirectory
        exact ⟨(Alike.refl d).forth, place, hwalk, hdirectory⟩
      · cases hexcuse
    · cases hexcuse

/-- Directories that were made are there, and none is lost. -/
theorem makeAll_ok {names : List String} (h : d.makeAll here names = (d', .ok ())) :
    d.Keeps d' ∧ (names = [] ∨ d'.Leads here names.reverse) := by
  induction names generalizing d' with
  | nil =>
    cases h
    exact ⟨(Alike.refl d).forth, .inl rfl⟩
  | cons name above ih =>
    rw [makeAll] at h
    rw [List.reverse_cons]
    split at h
    · split at h
      · rename_i hfirst
        obtain ⟨hkeeps, hleads⟩ := ensure_ok h
        exact ⟨(ih hfirst).1.trans hkeeps, .inr hleads⟩
      · rename_i hfailed
        exact absurd h (hfailed d')
    · obtain ⟨hkeeps, hleads⟩ := ensure_ok h
      exact ⟨hkeeps, .inr hleads⟩

/-- A directory that is there is not made again, and that is no failure. -/
theorem makeAll_again {names : List String} (h : d.Leads here names.reverse) :
    d.makeAll here names = (d, .ok ()) := by
  cases names with
  | nil => rfl
  | cons name above =>
    rw [List.reverse_cons] at h
    obtain ⟨place, hwalk, hdirectory⟩ := h
    have hsteps := hwalk
    rw [walk_concat] at hsteps
    obtain ⟨there, hfront, hstep⟩ := bind_eq_ok hsteps
    have hmake : d.make here (above.reverse ++ [name]) = .error .alreadyExists := by
      simp only [make, Disk.above, List.dropLast_concat, hfront, checkDirectory_ok.2
        (step_eq_ok hstep).1, bind, Except.bind, pure, Except.pure]
      split
      · rfl
      · rename_i last hlast
        obtain ⟨rfl, hfilter⟩ := Prod.mk.inj hlast
        obtain ⟨hname, _⟩ := Option.filter_eq_some_iff.1 hfilter
        rw [List.getLast?_concat] at hname
        obtain rfl := Option.some.inj hname
        simp only [hstep, hdirectory, Option.isSome_some, ↓reduceIte]
    have hensure : d.ensure here (above.reverse ++ [name]) = (d, .ok ()) := by
      simp only [ensure, hmake, excuse, hwalk, hdirectory, ↓reduceIte]
    rw [makeAll, hmake]
    exact hensure

/-- The directories above a file, once made, need not be made again. -/
theorem makeParents_again {e : Disk} (h : d.makeParents path = (d', .ok ())) (hk : d'.Keeps e) :
    e.makeParents path = (e, .ok ()) := by
  rw [makeParents, makeNames] at h ⊢
  split at h
  · cases h
  · rename_i hnul
    rw [if_neg hnul]
    obtain ⟨hkeeps, hnone | hleads⟩ := makeAll_ok h
    · rw [hnone]
      rfl
    · have hroot : e.root path = d.root path := by simp only [root, hk.home, hkeeps.home]
      rw [hroot]
      exact makeAll_again (hleads.keep hk)

end

end Disk
end ResolverRace
