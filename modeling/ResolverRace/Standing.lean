import ResolverRace.Pool.Basic
import ResolverRace.Store.Basic

/-!
# How resolvers stand

What is remembered of earlier outcomes: the resolver that won last, and the resolvers that failed
after they had been selected, the oldest failure first. Both order future pools. The memory
changes first and is then stored; when storing fails, the error is returned and the change stays.

* `Standing.succeeded`, `Standing.failed` — what an outcome changes.
* `Standing.apply` — the order of a pool under what is remembered.
* `Standing.recordSuccess`, `Standing.recordFailure` — an outcome with its storing.
* `mem_demoted_succeeded`, `mem_demoted_failed` — who is demoted after an outcome.
-/

namespace ResolverRace

structure Standing where
  /-- The resolver that won last, unless it has failed since. -/
  last : Option Address
  /-- Resolvers that failed after selection, the oldest failure first. -/
  demoted : List Address
  deriving DecidableEq

namespace Standing

def empty : Standing := ⟨none, []⟩

/-- A resolver worked. -/
def succeeded (t : Standing) (a : Address) : Standing :=
  { last := some a, demoted := t.demoted.filter (· ≠ a) }

/-- A resolver failed after it had been selected. -/
def failed (t : Standing) (a : Address) : Standing :=
  { last := if t.last = some a then none else t.last, demoted := t.demoted.filter (· ≠ a) ++ [a] }

theorem mem_demoted_succeeded {t : Standing} {a b : Address} :
    b ∈ (t.succeeded a).demoted ↔ b ∈ t.demoted ∧ b ≠ a := by
  simp [succeeded]

theorem mem_demoted_failed {t : Standing} {a b : Address} :
    b ∈ (t.failed a).demoted ↔ b ∈ t.demoted ∨ b = a := by
  by_cases h : b = a <;> simp [failed, h]

/-- Orders a pool: demoted resolvers go to the back one by one, then the last winner to the
front. -/
def apply (t : Standing) (p : Pool) : Pool :=
  let demoted := t.demoted.foldl Pool.demote p
  match t.last with
  | some a => demoted.promote a
  | none => demoted

/-- Texts as a stored value. -/
def encode (texts : List String) : String := Json.compact (.list (texts.map .text))

def decode? (stored : String) : Option (List String) := (Json.parse? stored).bind Datum.asTexts?

/-- What a store remembers. Entries that are no addresses are passed over. -/
def load (s : Store) : Except Error Standing := do
  let last ← s.get Store.lastKey
  let demoted ← s.get Store.demotedKey
  let last := last.bind Address.parse?
  match demoted with
  | none => return ⟨last, []⟩
  | some stored =>
    match decode? stored with
    | some entries => return ⟨last, entries.filterMap Address.parse?⟩
    | none => .error .encoding

/-- Stores the demoted resolvers; nothing is stored for none. -/
def saveDemoted (t : Standing) (s : Store) : Store × Except Error Unit :=
  if t.demoted.isEmpty then s.remove Store.demotedKey
  else s.put Store.demotedKey (encode (t.demoted.map Address.text))

/-- Two results as one; the first error counts. -/
def bothOk (first second : Except Error Unit) : Except Error Unit :=
  match first with
  | .ok () => second
  | .error e => .error e

/-- Records that a resolver worked. -/
def recordSuccess (t : Standing) (s : Store) (a : Address) :
    Standing × Store × Except Error Unit :=
  let now := t.succeeded a
  let (s, stored) := s.put Store.lastKey a.text
  if a ∈ t.demoted then
    let (s, saved) := now.saveDemoted s
    (now, s, bothOk stored saved)
  else (now, s, stored)

/-- Records that a selected resolver failed. -/
def recordFailure (t : Standing) (s : Store) (a : Address) :
    Standing × Store × Except Error Unit :=
  let now := t.failed a
  let (s, cleared) := if t.last = some a then s.remove Store.lastKey else (s, .ok ())
  let (s, saved) := now.saveDemoted s
  (now, s, bothOk cleared saved)

end Standing
end ResolverRace
