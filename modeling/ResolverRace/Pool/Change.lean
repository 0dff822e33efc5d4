import ResolverRace.Pool.Shuffle

/-!
# Changing a pool

A pool is changed in place, one change after another, and each change tells whether it found what it
is about. An address is brought to an end of the order by turning the stretch of entries between its
place and that end by one. Meanwhile snapshots may be taken, which races work on.

* `Pool.add`, `Pool.moveToFront`, `Pool.moveToBack` — changes with their answers.
* `Pool.Change` — one of these, or a shuffle.
* `Pool.Desk` — a pool that is changed, and the snapshots that were taken of it.
-/

namespace ResolverRace
namespace Pool

/-- Adds a candidate behind the others, unless its address is there already; tells whether it was
added. -/
def add (p : Pool) (c : Candidate) : Pool × Bool :=
  if (p.position? c.address).isSome then (p, false) else (⟨p.candidates ++ [c]⟩, true)

/-- Turns the entries up to that of an address by one, so that it comes first; tells whether the
address is there. -/
def moveToFront (p : Pool) (a : Address) : Pool × Bool :=
  match p.position? a with
  | some i => (⟨(p.candidates.take (i + 1)).rotateRight ++ p.candidates.drop (i + 1)⟩, true)
  | none => (p, false)

/-- Turns the entries from that of an address on by one, so that it comes last; tells whether the
address is there. -/
def moveToBack (p : Pool) (a : Address) : Pool × Bool :=
  match p.position? a with
  | some i => (⟨p.candidates.take i ++ (p.candidates.drop i).rotateLeft⟩, true)
  | none => (p, false)

inductive Change where
  | push (c : Candidate)
  | promote (a : Address)
  | demote (a : Address)
  /-- All that is asked of a shuffle is that it permutes. -/
  | shuffle (order : List Candidate → List Candidate) (permutes : ∀ cs, (order cs).Perm cs)

/-- The shuffle with certain random words. -/
def Change.shuffleWith (s : Random.Stream) : Change :=
  .shuffle (fun cs => (Random.shuffleList cs s).1) fun cs => Random.shuffleList_perm cs s

/-- The pool after a change. -/
def change (p : Pool) : Change → Pool
  | .push c => (p.add c).1
  | .promote a => (p.moveToFront a).1
  | .demote a => (p.moveToBack a).1
  | .shuffle order _ => ⟨order p.candidates⟩

/-- What is asked of the holder of a pool. -/
inductive Request where
  | change (c : Change)
  /-- To copy the present order. -/
  | snapshot

/-- A pool that is changed, and the snapshots that were taken of it, the oldest first. -/
structure Desk where
  pool : Pool
  snapshots : List (List Candidate)

namespace Desk

/-- The desk of a pool of which no snapshot was taken. -/
def opened (p : Pool) : Desk := ⟨p, []⟩

def serve (d : Desk) : Request → Desk
  | .change c => { d with pool := d.pool.change c }
  | .snapshot => { d with snapshots := d.snapshots ++ [d.pool.candidates] }

def serveAll (d : Desk) (requests : List Request) : Desk := requests.foldl serve d

end Desk

end Pool
end ResolverRace
