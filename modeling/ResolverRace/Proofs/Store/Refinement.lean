import ResolverRace.Proofs.Store.Writable

/-!
# A file store is a map that lasts

Whoever asks a store for values, changes them, and closes and opens the store now and then, gets the
answers of a map: what is read is what was put last, and a store that is opened again serves the
values that it served before. It does not show that the values are kept as the text of a file, nor
which changes have written the file.

* `Request`, `Reply`, `answers` — a course of requests, asked of a store or of a map.
* `FileStore.Holds` — the values that a file has at the start.
* `Serves`, `Serves.request` — the store and the map beside it, through one request.
* `file_store_is_map` — all answers of a course.
-/

namespace ResolverRace

/-- What is asked of a store. -/
inductive Request where
  | get (key : String)
  | change (c : Store.Change)
  /-- The store is closed, and opened again. -/
  | reopen

/-- What is answered: a value, whether the change was made, or what the opened store serves. -/
inductive Reply where
  | value (result : Except Error (Option String))
  | changed (result : Except Error Unit)
  | opened (result : Except Error KeyMap)
  deriving DecidableEq

namespace Store

/-- The store after a request, and the answer. A store that cannot be opened again is kept. -/
def serve (s : Store) : Request → Store × Reply
  | .get key => (s, .value (s.get key))
  | .change c => ((s.change c).1, .changed (s.change c).2)
  | .reopen =>
    match s.reopened with
    | .ok s' => (s', .opened (.ok s'.values))
    | .error e => (s, .opened (.error e))

def answers : Store → List Request → List Reply
  | _, [] => []
  | s, r :: rest => (s.serve r).2 :: (s.serve r).1.answers rest

end Store

/-- The answers of a map, which lasts and takes every change. -/
def KeyMap.answers : KeyMap → List Request → List Reply
  | _, [] => []
  | m, .get key :: rest => .value (.ok (m.get? key)) :: m.answers rest
  | m, .change c :: rest => .changed (.ok ()) :: KeyMap.answers (c.applyTo m) rest
  | m, .reopen :: rest => .opened (.ok m) :: m.answers rest

/-- The values that the file at a path has: none if the file is missing or blank, and those that
were written if it has the text of some values. -/
inductive FileStore.Holds (disk : Disk) (path : String) : KeyMap → Prop where
  | missing : disk.readText path = .error .notFound → Holds disk path .empty
  | blank {text : String} : disk.readText path = .ok text →
      (∀ c ∈ text.toList, Text.isBlank c = true) → Holds disk path .empty
  | written {m : KeyMap} : disk.readText path = .ok m.text → m.Ordered → Holds disk path m

namespace Store

/-- A store of a file that has the values, and serves them. -/
structure Serves (path : String) (m : KeyMap) (s : Store) : Prop where
  backing : s.backing = .file ⟨path, m⟩
  refusals : s.refusals = []
  ordered : m.Ordered
  file : FileStore.opened s.disk path = .ok ⟨path, m⟩

section

variable {path : String} {m : KeyMap} {s : Store} {disk : Disk}

theorem trimChars_of_blank {cs : List Char} (h : ∀ c ∈ cs, Text.isBlank c = true) :
    Text.trimChars cs = [] := by
  have hnone : cs.dropWhile Text.isBlank = [] := List.dropWhile_eq_nil_iff.2 h
  rw [Text.trimChars, hnone]
  rfl

/-- Every file of these kinds can be opened. -/
theorem serves_of_holds (h : FileStore.Holds disk path m) :
    (⟨.file ⟨path, m⟩, [], disk⟩ : Store).Serves path m := by
  cases h with
  | missing hread =>
    exact ⟨rfl, rfl, KeyMap.ordered_empty, by rw [FileStore.opened, hread]⟩
  | blank hread hblank =>
    refine ⟨rfl, rfl, KeyMap.ordered_empty, ?_⟩
    rw [FileStore.opened, hread]
    simp only [FileStore.valuesOfText?, trimChars_of_blank hblank, List.isEmpty_nil, if_true]
  | written hread hordered =>
    refine ⟨rfl, rfl, hordered, ?_⟩
    rw [FileStore.opened, hread]
    simp only [FileStore.valuesOfText?_text hordered]

theorem Serves.values (h : s.Serves path m) : s.values = m := by rw [Store.values, h.backing]

theorem Serves.get (h : s.Serves path m) (key : String) : s.get key = .ok (m.get? key) := by
  rw [Store.get, refuses, h.refusals, h.values]
  rfl

theorem Serves.reopened (h : s.Serves path m) : s.reopened = .ok s :=
  (upToDate_iff h.backing).2 h.file

/-- A change that is answered without an error is made in the file too. -/
theorem Serves.change (h : s.Serves path m) (c : Change) (hok : (s.change c).2 = .ok ()) :
    (s.change c).1.Serves path (c.applyTo m) := by
  obtain ⟨backing, refusals, disk⟩ := s
  obtain ⟨rfl, rfl, hordered, hfile⟩ := h
  have hordered' := ordered_applyTo hordered c
  rcases change_free path m disk c with ⟨hsame, hchange⟩ | hchange
  · rw [hchange, hsame]
    exact ⟨rfl, rfl, hordered, hfile⟩
  · rw [hchange] at hok ⊢
    refine ⟨rfl, rfl, hordered', ?_⟩
    have hread := FileStore.readText_of_flush (Prod.ext rfl hok)
    exact (serves_of_holds (.written hread hordered')).file

/-- One request: the answer of the map, unless it is a change that failed. -/
theorem Serves.request (h : s.Serves path m) (r : Request) (rest : List Request)
    (hok : ∀ result, (s.serve r).2 = .changed result → result = .ok ()) :
    ∃ m', (s.serve r).1.Serves path m' ∧
      m.answers (r :: rest) = (s.serve r).2 :: m'.answers rest := by
  cases r with
  | get key =>
    refine ⟨m, h, ?_⟩
    rw [KeyMap.answers, serve, h.get]
  | change c =>
    have hchange : (s.change c).2 = .ok () := hok _ rfl
    refine ⟨c.applyTo m, h.change c hchange, ?_⟩
    rw [KeyMap.answers, serve, hchange]
  | reopen =>
    simp only [serve, h.reopened]
    exact ⟨m, h, by rw [KeyMap.answers, h.values]⟩

theorem Serves.answers (h : s.Serves path m) (requests : List Request)
    (hok : ∀ result, Reply.changed result ∈ s.answers requests → result = .ok ()) :
    s.answers requests = m.answers requests := by
  induction requests generalizing s m with
  | nil => rfl
  | cons r rest ih =>
    rw [Store.answers] at hok ⊢
    obtain ⟨m', hserves, hanswers⟩ := h.request r rest fun result hresult =>
      hok result (List.mem_cons.2 (.inl hresult.symm))
    rw [hanswers, ih hserves fun result hresult => hok result (List.mem_cons_of_mem _ hresult)]

/-- If the file can be written, no change fails. -/
theorem Serves.unfailing (h : s.Serves path m) (hwritable : FileStore.Writable s.disk path)
    (requests : List Request) :
    ∀ result, Reply.changed result ∈ s.answers requests → result = .ok () := by
  induction requests generalizing s m with
  | nil => exact fun _ hmem => nomatch hmem
  | cons r rest ih =>
    have hunhindered : s.Unhindered path := ⟨⟨m, h.backing, h.ordered⟩, h.refusals, hwritable⟩
    intro result hmem
    rw [Store.answers, List.mem_cons] at hmem
    cases r with
    | get key =>
      rcases hmem with hhead | hmem
      · cases hhead
      · exact ih h hwritable result hmem
    | change c =>
      obtain ⟨hok, hnext⟩ := hunhindered.change c
      rcases hmem with hhead | hmem
      · rw [← hok]
        exact Reply.changed.inj hhead
      · exact ih (h.change c hok) hnext.writable result hmem
    | reopen =>
      simp only [serve, h.reopened] at hmem
      rcases hmem with hhead | hmem
      · cases hhead
      · exact ih h hwritable result hmem

theorem answers_inMemory (m : KeyMap) (disk : Disk) (requests : List Request) :
    (inMemory m disk).answers requests = m.answers requests := by
  induction requests generalizing m with
  | nil => rfl
  | cons r rest ih =>
    cases r with
    | get key => exact congrArg _ (ih m)
    | change c =>
      rw [Store.answers, serve, change_inMemory, ih, KeyMap.answers]
    | reopen => exact congrArg _ (ih m)

end

/-- A file is missing, blank or written, and a store of it is asked any requests. If the file can be
written then no change fails; and if none fails then all answers are those of a map, and of a store
in memory, with the values that the file had at the start. -/
theorem file_store_is_map {disk : Disk} {path : String} {m : KeyMap}
    (h : FileStore.Holds disk path m) (requests : List Request) :
    let file : Store := ⟨.file ⟨path, m⟩, [], disk⟩
    FileStore.opened disk path = .ok ⟨path, m⟩ ∧
      (FileStore.Writable disk path →
        ∀ result, Reply.changed result ∈ file.answers requests → result = .ok ()) ∧
      ((∀ result, Reply.changed result ∈ file.answers requests → result = .ok ()) →
        file.answers requests = m.answers requests ∧
          file.answers requests = (inMemory m disk).answers requests) := by
  intro file
  have hserves := serves_of_holds h
  refine ⟨hserves.file, fun hwritable => hserves.unfailing hwritable requests, fun hok => ?_⟩
  have hanswers := hserves.answers requests hok
  exact ⟨hanswers, hanswers.trans (answers_inMemory m disk requests).symm⟩

/-- The file is missing, and so are the directories above it. Keys and values have quotes, control
characters and further texts of this kind in them. -/
theorem file_store_is_map_of_quoted_values :
    let path := "var/lib/state.json"
    let key := "\"\\\x00é\uFFFF"
    let value := "\x7b\"a\": \"\\u0000\"\x7d\n"
    let requests : List Request := [.get key, .change (.put key value), .reopen, .get key,
      .change (.put "" key), .change (.remove key), .reopen, .change (.remove key), .get key,
      .get ""]
    FileStore.Holds .empty path .empty ∧ FileStore.Writable .empty path ∧
      (⟨.file ⟨path, .empty⟩, [], .empty⟩ : Store).answers requests =
        [.value (.ok none), .changed (.ok ()), .opened (.ok ⟨[(key, value)]⟩),
          .value (.ok (some value)), .changed (.ok ()), .changed (.ok ()),
          .opened (.ok ⟨[("", key)]⟩), .changed (.ok ()), .value (.ok none),
          .value (.ok (some key))] := by
  intro path key value requests
  have hread : Disk.empty.readText path = .error .notFound := by decide +kernel
  have hholds : FileStore.Holds .empty path .empty := .missing hread
  have hflush : (FileStore.flush .empty path .empty).2 = .ok () := by decide +kernel
  have hwritable := (FileStore.writable_of_flush (Prod.ext rfl hflush)).1
  obtain ⟨_, hunfailing, hanswers⟩ := file_store_is_map hholds requests
  refine ⟨hholds, hwritable, ?_⟩
  rw [(hanswers (hunfailing hwritable)).1]
  decide +kernel

end Store
end ResolverRace
