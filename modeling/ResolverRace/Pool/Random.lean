/-!
# Random words

A stream of 32-bit words that a shuffle draws from. A seeded stream is the ChaCha key stream of
twelve rounds with a 64-bit block counter; its key is filled from the seed by a permuted
congruential generator.
-/

namespace ResolverRace
namespace Random

/-- An endless supply of words and how many of them were used. -/
structure Stream where
  word : Nat → UInt32
  position : Nat

namespace Stream

def next (s : Stream) : UInt32 × Stream :=
  (s.word s.position, { s with position := s.position + 1 })

end Stream

def rotateLeft (x n : UInt32) : UInt32 := (x <<< n) ||| (x >>> (32 - n))

def rotateRight (x n : UInt32) : UInt32 := (x >>> n) ||| (x <<< ((32 - n) % 32))

/-- Fills `n` key words from a seed, one step of the generator each. -/
def keyWords : Nat → UInt64 → List UInt32
  | 0, _ => []
  | n + 1, state =>
    let state := state * 6364136223846793005 + 11634580027462260723
    let mixed := (((state >>> 18) ^^^ state) >>> 27).toUInt32
    rotateRight mixed (state >>> 59).toUInt32 :: keyWords n state

abbrev Block := Vector UInt32 16

def quarterRound (v : Block) (a b c d : Fin 16) : Block :=
  let v := v.set a (v[a] + v[b])
  let v := v.set d (rotateLeft (v[d] ^^^ v[a]) 16)
  let v := v.set c (v[c] + v[d])
  let v := v.set b (rotateLeft (v[b] ^^^ v[c]) 12)
  let v := v.set a (v[a] + v[b])
  let v := v.set d (rotateLeft (v[d] ^^^ v[a]) 8)
  let v := v.set c (v[c] + v[d])
  v.set b (rotateLeft (v[b] ^^^ v[c]) 7)

/-- A round on the columns and one on the diagonals. -/
def doubleRound (v : Block) : Block :=
  let v := quarterRound v 0 4 8 12
  let v := quarterRound v 1 5 9 13
  let v := quarterRound v 2 6 10 14
  let v := quarterRound v 3 7 11 15
  let v := quarterRound v 0 5 10 15
  let v := quarterRound v 1 6 11 12
  let v := quarterRound v 2 7 8 13
  quarterRound v 3 4 9 14

/-- The key stream's starting block: constants, key, block number, zeros. -/
def startBlock (key : List UInt32) (number : Nat) : Block :=
  let words : List UInt32 :=
    [0x61707865, 0x3320646e, 0x79622d32, 0x6b206574] ++ key ++
      [.ofNat number, .ofNat (number / UInt32.size), 0, 0]
  Vector.ofFn fun i => words.getD i.val 0

/-- Six double rounds, and the starting block added. -/
def keyBlock (key : List UInt32) (number : Nat) : Block :=
  let start := startBlock key number
  let mixed := (List.range 6).foldl (fun v _ => doubleRound v) start
  Vector.ofFn fun i => mixed[i] + start[i]

/-- The stream of a seed. -/
def Stream.ofSeed (seed : UInt64) : Stream :=
  let key := keyWords 8 seed
  { word := fun n => (keyBlock key (n / 16))[n % 16], position := 0 }

/-- A nearly uniform number below `p`, which is at most 2³²: the high half of a word times `p`,
raised by one if a second word shows that the fraction carries. -/
def below (p : Nat) (s : Stream) : Nat × Stream :=
  let (w, s) := s.next
  let product := w.toNat * p
  let high := product / UInt32.size
  let low := product % UInt32.size
  if UInt32.size - p < low then
    let (w, s) := s.next
    let carry := low + w.toNat * p / UInt32.size
    (if UInt32.size ≤ carry then high + 1 else high, s)
  else (high, s)

end Random
end ResolverRace
