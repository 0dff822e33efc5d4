import ResolverRace.Text.Number

/-!
# Seconds with one decimal

A length of time in microseconds is shown in seconds with one decimal. The number shown is a
binary fraction of 53 significant bits: the fraction of a second is rounded to one, the whole
seconds are added and the sum is rounded again. Its exact value is then rounded to tenths. Each
time a tie goes to the even neighbour.
-/

namespace ResolverRace
namespace Text

/-- The nearest whole number to `num / den`, of two the even one. -/
def roundDiv (num den : Nat) : Nat :=
  let low := num / den
  let twice := 2 * (num % den)
  if twice < den then low
  else if den < twice then low + 1
  else if low % 2 = 0 then low else low + 1

/-- A number written as a quotient. -/
structure Ratio where
  num : Nat
  den : Nat
  deriving Repr

namespace Ratio

/-- The power of two by which a positive number is multiplied to have a whole part of 53 bits. -/
def scale (r : Ratio) : Int :=
  let guess : Int := 52 - ((r.num.log2 : Int) - r.den.log2)
  let num := r.num * Nat.pow 2 guess.toNat
  let den := r.den * Nat.pow 2 (-guess).toNat
  if num < den * Nat.pow 2 52 then guess + 1 else guess

/-- The nearest number of 53 significant bits. -/
def nearest (r : Ratio) : Ratio :=
  if r.num = 0 then ⟨0, 1⟩
  else
    let k := r.scale
    let mantissa := roundDiv (r.num * Nat.pow 2 k.toNat) (r.den * Nat.pow 2 (-k).toNat)
    ⟨mantissa * Nat.pow 2 (-k).toNat, Nat.pow 2 k.toNat⟩

end Ratio

/-- The seconds in a number of microseconds as a number of 53 significant bits. -/
def secondsOf (micros : Nat) : Ratio :=
  let part := Ratio.nearest ⟨micros % 1000000, 1000000⟩
  Ratio.nearest ⟨micros / 1000000 * part.den + part.num, part.den⟩

/-- Seconds with one decimal. -/
def secondsText (micros : Nat) : String :=
  let seconds := secondsOf micros
  let tenths := roundDiv (10 * seconds.num) seconds.den
  toString (tenths / 10) ++ "." ++ toString (tenths % 10)

end Text
end ResolverRace
