import ResolverRace.Pool.Basic
import ResolverRace.Pool.Random

/-!
# Shuffling a pool

The shuffle walks the list once and swaps each entry with one at or before it. One random number
serves several entries: it is drawn below a product of consecutive bounds and taken apart by
division.

* `shuffleList_perm` — a shuffle permutes.
-/

namespace ResolverRace
namespace Random

/-- The product of `product` and as many of the numbers from `bound` on as keep it below 2³²,
with the first number left out. -/
def gather : (fuel : Nat) → (product bound : Nat) → Nat × Nat
  | 0, product, bound => (product, bound)
  | fuel + 1, product, bound =>
    if product * bound < UInt32.size then gather fuel (product * bound) (bound + 1)
    else (product, bound)

/-- What a shuffle carries from entry to entry: the number in hand, for how many entries it still
serves, and the stream. -/
structure Draw where
  chunk : Nat
  left : Nat
  stream : Stream

/-- An index up to `n`. Every bound is at least two once a new number is drawn, so 32 factors
reach 2³². -/
def Draw.index (d : Draw) (n : Nat) : Nat × Draw :=
  let m := n + 1
  let d :=
    if d.left = 0 then
      let (product, bound) := gather 32 m (m + 1)
      let (chunk, stream) := below product d.stream
      { chunk := chunk, left := bound - m, stream := stream : Draw }
    else d
  let left := d.left - 1
  if left = 0 then (d.chunk, { d with left := left })
  else (d.chunk % m, { d with chunk := d.chunk / m, left := left })

/-- Swaps the entries `i`, `i + 1`, … of an array, `n` of them, each with one at or before it. -/
def shuffleFrom {α : Type} : (n i : Nat) → Array α → Draw → Array α × Draw
  | 0, _, items, d => (items, d)
  | n + 1, i, items, d =>
    let (j, d) := d.index i
    shuffleFrom n (i + 1) (items.swapIfInBounds i j) d

/-- Shuffles a list; fewer than two entries use no random words. -/
def shuffleList {α : Type} (items : List α) (s : Stream) : List α × Stream :=
  if items.length ≤ 1 then (items, s)
  else
    let (shuffled, d) := shuffleFrom items.length 0 items.toArray ⟨0, 1, s⟩
    (shuffled.toList, d.stream)

theorem swapIfInBounds_perm {α : Type} (items : Array α) (i j : Nat) :
    (items.swapIfInBounds i j).Perm items := by
  rw [Array.swapIfInBounds]
  split
  · split
    · exact Array.swap_perm ..
    · exact .refl _
  · exact .refl _

theorem shuffleFrom_perm {α : Type} (n i : Nat) (items : Array α) (d : Draw) :
    (shuffleFrom n i items d).1.Perm items := by
  induction n generalizing i items d with
  | zero => exact .refl _
  | succ n ih => exact (ih _ _ _).trans (swapIfInBounds_perm ..)

theorem shuffleList_perm {α : Type} (items : List α) (s : Stream) :
    (shuffleList items s).1.Perm items := by
  rw [shuffleList]
  split
  · exact .refl _
  · exact Array.perm_iff_toList_perm.1 (shuffleFrom_perm items.length 0 items.toArray ⟨0, 1, s⟩)

end Random

namespace Pool

/-- Brings the candidates into random order. -/
def shuffle (p : Pool) (s : Random.Stream) : Pool × Random.Stream :=
  let (candidates, s) := Random.shuffleList p.candidates s
  (⟨candidates⟩, s)

end Pool
end ResolverRace
