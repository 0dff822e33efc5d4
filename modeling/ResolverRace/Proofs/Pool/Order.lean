import ResolverRace.Source.Catalogue
import ResolverRace.Standing

/-!
# What reordering leaves of a pool

A pool read from entries has no address twice, and all its candidates have one origin. Whatever
reorders a pool afterwards permutes it.

* `promote_perm`, `demote_perm`, `shuffle_perm`, `apply_perm` — reorderings permute.
* `demote_moved` — where a demoted address goes, and that the others keep their order.
* `clean_ofEntries` — pools read from entries.
* `load_perm` — a loaded pool permutes what its entries give.
-/

namespace ResolverRace
namespace Pool

/-! ## Reorderings -/

/-- The candidate that is moved, and the others in their order. -/
theorem perm_cons_erase {p : Pool} {a : Address} {c : Candidate} (h : p.find? a = some c) :
    (c :: (p.erase a).candidates).Perm p.candidates := by
  obtain ⟨cs⟩ := p
  induction cs with
  | nil => cases h
  | cons d ds ih =>
    simp only [find?, List.find?_cons, erase, List.eraseP_cons] at h ih ⊢
    by_cases hd : d.address = a
    · simp only [hd, decide_true] at h ⊢
      cases h
      exact .refl _
    · simp only [hd, decide_false] at h ⊢
      exact (List.Perm.swap d c _).trans ((ih h).cons d)

theorem promote_perm (p : Pool) (a : Address) :
    (p.promote a).candidates.Perm p.candidates := by
  rw [promote]
  cases h : p.find? a with
  | none => exact .refl _
  | some c => exact perm_cons_erase h

theorem demote_perm (p : Pool) (a : Address) : (p.demote a).candidates.Perm p.candidates := by
  rw [demote]
  cases h : p.find? a with
  | none => exact .refl _
  | some c => exact (List.perm_append_singleton _ _).trans (perm_cons_erase h)

/-- The entry of the address has moved behind all others, whose order has stayed; with no entry of
it nothing has changed. -/
structure MovedToBack (p : Pool) (a : Address) (q : Pool) : Prop where
  absent : a ∉ p.addresses → q = p
  present : ∀ front c back, p.candidates = front ++ c :: back → c.address = a →
    (∀ d ∈ front, d.address ≠ a) → q.candidates = front ++ back ++ [c]

/-- The first entry of an address is the one that is found, and the one that is left out. -/
theorem cut_of_split {p : Pool} {a : Address} {front back : List Candidate} {c : Candidate}
    (hp : p.candidates = front ++ c :: back) (hc : c.address = a)
    (hfront : ∀ d ∈ front, d.address ≠ a) :
    p.find? a = some c ∧ (p.erase a).candidates = front ++ back := by
  have hskip : ∀ d ∈ front, ¬ decide (d.address = a) = true := by
    intro d hd
    simpa using hfront d hd
  constructor
  · have hnone : front.find? (·.address = a) = none := List.find?_eq_none.2 hskip
    rw [find?, hp, List.find?_append, hnone]
    simp [hc]
  · rw [erase, hp, List.eraseP_append_right _ hskip]
    simp [hc]

theorem demote_moved (p : Pool) (a : Address) : p.MovedToBack a (p.demote a) := by
  constructor
  · intro ha
    rw [demote, find?_eq_none_iff.2 ha]
  · intro front c back hp hc hfront
    obtain ⟨hfind, herase⟩ := cut_of_split hp hc hfront
    simp only [demote, hfind, herase]

theorem shuffle_perm (p : Pool) (s : Random.Stream) :
    (p.shuffle s).1.candidates.Perm p.candidates :=
  Random.shuffleList_perm p.candidates s

/-- One reordering after another. -/
theorem foldl_perm {f : Pool → Address → Pool}
    (hf : ∀ p a, (f p a).candidates.Perm p.candidates) (addresses : List Address) (p : Pool) :
    (addresses.foldl f p).candidates.Perm p.candidates := by
  induction addresses generalizing p with
  | nil => exact .refl _
  | cons a rest ih => exact (ih (f p a)).trans (hf p a)

theorem preferWellKnown_perm (p : Pool) : p.preferWellKnown.candidates.Perm p.candidates :=
  foldl_perm promote_perm preferred.reverse p

/-! ## Pools read from entries -/

/-- No address twice, and one origin. -/
structure Clean (origin : Origin) (p : Pool) : Prop where
  nodup : p.addresses.Nodup
  origins : ∀ c ∈ p.candidates, c.origin = origin

theorem Clean.perm {origin : Origin} {p q : Pool} (h : p.Clean origin)
    (hperm : q.candidates.Perm p.candidates) : q.Clean origin :=
  ⟨(hperm.map _).nodup_iff.2 h.nodup, fun c hc => h.origins c (hperm.subset hc)⟩

theorem nodup_push {p : Pool} (h : p.addresses.Nodup) (c : Candidate) :
    (p.push c).addresses.Nodup := by
  rw [addresses_push]
  split
  · exact h
  · rename_i hc
    rw [(List.perm_append_singleton _ _).nodup_iff, List.nodup_cons]
    exact ⟨hc, h⟩

theorem Clean.push {origin : Origin} {p : Pool} (h : p.Clean origin) (a : Address) :
    (p.push ⟨a, origin⟩).Clean origin := by
  refine ⟨nodup_push h.nodup _, fun c hc => ?_⟩
  rw [Pool.push] at hc
  split at hc
  · exact h.origins c hc
  · rcases List.mem_append.1 hc with hc | hc
    · exact h.origins c hc
    · rw [List.mem_singleton.1 hc]

theorem Clean.add {origin : Origin} {l : Loaded} (h : l.pool.Clean origin) (entry : String) :
    (l.add origin entry).pool.Clean origin := by
  rw [Loaded.add]
  split
  · exact h.push _
  · exact h

theorem clean_ofEntries (entries : List String) (origin : Origin) :
    (ofEntries entries origin).pool.Clean origin := by
  have hgen : ∀ (l : Loaded), l.pool.Clean origin →
      (entries.foldl (Loaded.add origin) l).pool.Clean origin := by
    induction entries with
    | nil => exact fun _ h => h
    | cons entry rest ih => exact fun l h => ih (l.add origin entry) (h.add entry)
  exact hgen ⟨empty, []⟩ ⟨List.nodup_nil, fun c hc => by cases hc⟩

end Pool

theorem Standing.apply_perm (t : Standing) (p : Pool) :
    (t.apply p).candidates.Perm p.candidates := by
  have hdemoted := Pool.foldl_perm Pool.demote_perm t.demoted p
  rw [Standing.apply]
  cases t.last with
  | none => exact hdemoted
  | some a => exact (Pool.promote_perm _ a).trans hdemoted

/-- The origin of the candidates of a source. -/
def Source.origin : Source → Origin
  | .builtin => .builtin
  | .custom id => .custom id

namespace Catalogue

/-- The entries of a source. -/
def entries? (c : Catalogue) : Source → Option (List String)
  | .builtin => some c.builtin
  | .custom id => (c.find? id).map (·.resolvers)

theorem isSome_entries? (c : Catalogue) (source : Source) :
    (c.entries? source).isSome = c.resolves source := by
  cases source with
  | builtin => rfl
  | custom id => simp [entries?, resolves]

theorem find?_id {c : Catalogue} {id : String} {l : UserList} (h : c.find? id = some l) :
    l.id = id := by
  simpa using List.find?_some h

/-- A source with entries can be loaded, and gives them in some order. -/
theorem load_perm {c : Catalogue} {source : Source} {entries : List String}
    (h : c.entries? source = some entries) (chance : Random.Stream) :
    ∃ loaded rest, c.load source chance = .ok (loaded, rest) ∧
      loaded.pool.candidates.Perm (Pool.ofEntries entries source.origin).pool.candidates := by
  cases source with
  | builtin =>
    cases h
    let read := (Pool.ofEntries c.builtin .builtin).pool
    have hperm : (if c.shuffles then read.shuffle chance else (read, chance)).1.candidates.Perm
        read.candidates := by
      split
      · exact Pool.shuffle_perm _ _
      · exact .refl _
    exact ⟨_, _, rfl, (Pool.preferWellKnown_perm _).trans hperm⟩
  | custom id =>
    obtain ⟨l, hl, rfl⟩ := Option.map_eq_some_iff.1 h
    refine ⟨Pool.ofEntries l.resolvers (.custom l.id), chance, by rw [load, hl], ?_⟩
    rw [find?_id hl]
    exact .refl _

theorem load_eq_error {c : Catalogue} {source : Source} (h : c.entries? source = none)
    (chance : Random.Stream) : ∃ cause, c.load source chance = .error cause := by
  cases source with
  | builtin => cases h
  | custom id =>
    have hnone : c.find? id = none := Option.map_eq_none_iff.1 h
    exact ⟨.unknownList id, by rw [load, hnone]⟩

end Catalogue
end ResolverRace
