import TournamentDraw.Binary64
import TournamentDraw.Draw.Hash

/-!
# The seeded shuffle

A draw must be reproducible from its stored seed, so teams are permuted by a Fisher–Yates pass
driven by a small linear congruential generator whose start is the seed hash. At position `i`,
from the last down to the second, the generator advances and the position `j` to swap with is
the truncation of `state / 233280 * (i + 1)`, both steps rounded to binary64.
-/

namespace TournamentDraw.Draw

/-- The multiplier of the generator. -/
def lcgMultiplier : Nat := 9301

/-- The increment of the generator. -/
def lcgIncrement : Nat := 49297

/-- The modulus of the generator. -/
def lcgModulus : Nat := 233280

/-- The next state of the generator. -/
def lcgNext (state : Nat) : Nat :=
  (state * lcgMultiplier + lcgIncrement) % lcgModulus

/-- The swap partner for position `i` when the generator stands at `state`. -/
def swapIndex (state i : Nat) : Nat :=
  let q := Binary64.ofFraction state lcgModulus
  (Binary64.mul q (Binary64.ofInt (i + 1))).trunc.toNat

/-- Swap the entries at `i` and `j` when both exist. -/
def swapAt {α : Type} (xs : Array α) (i j : Nat) : Array α :=
  if hi : i < xs.size then
    if hj : j < xs.size then xs.swap i j hi hj else xs
  else xs

/-- The Fisher–Yates pass over positions `i, i - 1, …, 1`, starting with `state`. -/
def shuffleFrom {α : Type} : Nat → Nat → Array α → Array α
  | 0, _, xs => xs
  | i + 1, state, xs =>
    let state' := lcgNext state
    shuffleFrom i state' (swapAt xs (i + 1) (swapIndex state' (i + 1)))

/-- The permutation of `items` fixed by `seed`. -/
def seededShuffle {α : Type} (items : List α) (seed : String) : List α :=
  (shuffleFrom (items.length - 1) (seedHash seed) items.toArray).toList

end TournamentDraw.Draw
