import ResolverRace.Candidate

/-!
# Candidate pools

A pool lists candidates in the order in which they are tried. Entries are added behind, an address
that is already there is not added again, and one entry can be moved to the front or to the back.

* `addresses_push`, `addresses_promote`, `addresses_demote` — what each change does to the
  addresses.
* `Pool.ofEntries` — entries are read one by one; bad ones are set aside with their errors.
-/

namespace ResolverRace

/-- Candidates in the order in which they are tried. -/
structure Pool where
  candidates : List Candidate
  deriving DecidableEq

namespace Pool

def empty : Pool := ⟨[]⟩

def size (p : Pool) : Nat := p.candidates.length

def isEmpty (p : Pool) : Bool := p.candidates.isEmpty

/-- Addresses in the order in which they are tried. -/
def addresses (p : Pool) : List Address := p.candidates.map (·.address)

def contains (p : Pool) (a : Address) : Bool := p.candidates.any (·.address = a)

/-- The place of an address in the order. -/
def position? (p : Pool) (a : Address) : Option Nat :=
  p.candidates.findIdx? (·.address = a)

def find? (p : Pool) (a : Address) : Option Candidate := p.candidates.find? (·.address = a)

/-- Adds a candidate behind the others, unless its address is there already. -/
def push (p : Pool) (c : Candidate) : Pool :=
  if p.contains c.address then p else ⟨p.candidates ++ [c]⟩

/-- The pool without the first entry of an address. -/
def erase (p : Pool) (a : Address) : Pool := ⟨p.candidates.eraseP (·.address = a)⟩

/-- Moves an address to the front; an address that is not there changes nothing. -/
def promote (p : Pool) (a : Address) : Pool :=
  match p.find? a with
  | some c => ⟨c :: (p.erase a).candidates⟩
  | none => p

/-- Moves an address to the back; an address that is not there changes nothing. -/
def demote (p : Pool) (a : Address) : Pool :=
  match p.find? a with
  | some c => ⟨(p.erase a).candidates ++ [c]⟩
  | none => p

theorem contains_iff {p : Pool} {a : Address} : p.contains a = true ↔ a ∈ p.addresses := by
  simp [contains, addresses]

theorem addresses_push (p : Pool) (c : Candidate) :
    (p.push c).addresses =
      if c.address ∈ p.addresses then p.addresses else p.addresses ++ [c.address] := by
  by_cases h : p.contains c.address
  · rw [push, if_pos h, if_pos (contains_iff.1 h)]
  · rw [push, if_neg h, if_neg fun hm => h (contains_iff.2 hm)]
    simp [addresses]

@[simp] theorem addresses_erase (p : Pool) (a : Address) :
    (p.erase a).addresses = p.addresses.erase a := by
  rw [erase, addresses, addresses]
  induction p.candidates with
  | nil => rfl
  | cons c cs ih =>
    rw [List.eraseP_cons, List.map_cons, List.erase_cons]
    by_cases h : c.address = a
    · simp [h]
    · simp [h, ih]

theorem find?_address {p : Pool} {a : Address} {c : Candidate} (h : p.find? a = some c) :
    c.address = a ∧ a ∈ p.addresses := by
  have ha : c.address = a := by simpa using List.find?_some h
  exact ⟨ha, ha ▸ List.mem_map_of_mem (List.mem_of_find?_eq_some h)⟩

theorem find?_eq_none_iff {p : Pool} {a : Address} : p.find? a = none ↔ a ∉ p.addresses := by
  simp [find?, addresses]

theorem addresses_promote (p : Pool) (a : Address) :
    (p.promote a).addresses =
      if a ∈ p.addresses then a :: p.addresses.erase a else p.addresses := by
  rw [promote]
  cases h : p.find? a with
  | none => rw [if_neg (find?_eq_none_iff.1 h)]
  | some c =>
    obtain ⟨ha, hm⟩ := find?_address h
    rw [if_pos hm, ← addresses_erase, ← ha]
    rfl

theorem addresses_demote (p : Pool) (a : Address) :
    (p.demote a).addresses =
      if a ∈ p.addresses then p.addresses.erase a ++ [a] else p.addresses := by
  rw [demote]
  cases h : p.find? a with
  | none => rw [if_neg (find?_eq_none_iff.1 h)]
  | some c =>
    obtain ⟨ha, hm⟩ := find?_address h
    rw [if_pos hm, ← addresses_erase, ← ha, addresses, addresses, List.map_append]
    rfl

/-- A pool read from entries, and the errors of the entries that were refused. -/
structure Loaded where
  pool : Pool
  rejected : List AddressError

namespace Loaded

/-- Takes in one more entry. -/
def add (origin : Origin) (l : Loaded) (entry : String) : Loaded :=
  match Address.parse entry with
  | .ok address => ⟨l.pool.push ⟨address, origin⟩, l.rejected⟩
  | .error e => ⟨l.pool, l.rejected ++ [e]⟩

end Loaded

/-- Reads entries in order; of equal addresses the first one counts. -/
def ofEntries (entries : List String) (origin : Origin) : Loaded :=
  entries.foldl (Loaded.add origin) ⟨empty, []⟩

end Pool
end ResolverRace
