import TournamentDraw.Binary64.Double
import TournamentDraw.Bracket.Error
import TournamentDraw.Value.Arith

/-!
# The shape of a competition

How many knockout rounds a number of teams needs, what a round is called, how teams split
into groups, and the circle method that pairs every team of a round robin with every other.

The size of a knockout draw is the power of two `2 ^ ⌈log₂ n⌉`, where the logarithm is taken
in binary64 of `n` rounded to binary64. For `n` between two powers of two that logarithm
rounds down onto the lower exponent `k` exactly when `n`, written `2 ^ k * (1 + j / 2 ^ 52)`,
has `j < ln 2 * 2 ^ (p - 1)` with `p = ⌊log₂ k⌋`: only then is the excess below half a unit
in the last place of `k`.

An `n` that rounds to an infinity is first split as `x * 2 ^ e` with `x` in `[1/2, 1)`
rounded to 53 bits, and the logarithm is `log₂ x + e`, each step rounded. Writing
`x = (1 + j / 2 ^ 52) / 2`, the sum rounds down onto `e - 1` exactly when the rounded
`log₂ x + 1`, a multiple of `2 ^ -53`, is at most half a unit in the last place of `e - 1`:
when `j < ln 2 * (2 ^ p + 1 / 2) / 2` with `p = ⌊log₂ (e - 1)⌋`. So a count just above a
power of two past the finite range still takes that power.

The quotients that split teams into groups are taken in binary64 too, and one beyond its
finite range is refused.
-/

namespace TournamentDraw.Shape

-- Powers and sums of numbers are the core ones, with no other instance in scope taking over.
attribute [local instance (2000)] instPowNat Zero.ofOfNat0

/-- `ln 2` as the fraction `ln2Num / ln2Den`, to thirty places. -/
def ln2Num : Nat := 693147180559945309417232121458

/-- The denominator of `ln2Num`. -/
def ln2Den : Nat := 10 ^ (30 : Nat)

/-- The exponent `⌈log₂ n⌉` computed in binary64, for an `n` that rounds to an infinity:
from the 53-bit fraction `x` and the exponent `e` of `n = x * 2 ^ e`. -/
def ceilLog2Split (n : Nat) : Nat :=
  let e := Nat.log2 n + 1
  let m := Binary64.roundHalfEven n (2 ^ (e - 53))
  -- a fraction rounded up to one is the half of the next exponent
  let (m, e) := if m = 2 ^ (53 : Nat) then (2 ^ (52 : Nat), e + 1) else (m, e)
  let j := m - 2 ^ (52 : Nat)
  if 4 * j * ln2Den < ln2Num * (2 ^ (Nat.log2 (e - 1) + 1) + 1) then e - 1 else e

/-- The exponent `⌈log₂ x⌉` computed in binary64, for a finite `x > 1`. -/
def ceilLog2Finite (d : Binary64) : Nat :=
  let m := d.mant.toNat
  let k := ((Nat.log2 m : Int) + d.exp).toNat
  if m = 2 ^ Nat.log2 m then k
  else
    -- the significand scaled to 53 bits, less its leading one
    let j := m * 2 ^ (52 - Nat.log2 m) - 2 ^ (52 : Nat)
    if 2 * j * ln2Den < ln2Num * 2 ^ Nat.log2 k then k else k + 1

/-- The exponent `⌈log₂ n⌉` computed in binary64, for `n ≥ 2`. -/
def ceilLog2 (n : Nat) : Nat :=
  if Double.overflowBound ≤ n then ceilLog2Split n else ceilLog2Finite (Binary64.ofInt n)

/-- The least power of two not below `n`, through binary64 logarithms; `1` for `n ≤ 1`. -/
def nextPowerOfTwo (n : Int) : Nat :=
  if n ≤ 1 then 1 else 2 ^ ceilLog2 n.toNat

/-- The rounds and the size of a knockout draw for a count of teams. The count is a value: a
count below two is refused, as is one of a kind that does not compare with numbers, and a
binary64 count must be finite. -/
def knockout (count : Value) : Except BracketError (Nat × Nat) := do
  match Value.relate .lt count (.int 2) with
  | .error e => throw (.operand e)
  | .ok true => throw (.knockoutTeams count)
  | .ok false => pure ()
  let k ← match count with
    | .int n => pure (ceilLog2 n.toNat)
    | .float (.finite x) => pure (ceilLog2Finite x)
    | .float (.infinity _) => throw (.notWhole true)
    | .float .nan => throw (.notWhole false)
    | _ => pure 1
  return (k, 2 ^ k)

/-- The rounds and the size of a knockout draw for `n` teams. -/
def elimination (n : Int) : Except BracketError (Nat × Nat) :=
  knockout (.int n)

/-- The number of bye matches in the first round of a draw of `size` places for a count of
teams: the first-round matches whose index is below `size - count`, that difference taken in
binary64 for a binary64 count. -/
def byeCount (size : Nat) (count : Value) : Nat :=
  match count with
  | .int n => size - n.toNat
  | c =>
    match Value.minus (.int size) c with
    | .ok d => ((List.range (size / 2)).filter fun (i : Nat) =>
        (Value.relate .lt (.int (i : Int)) d).toOption.getD false).length
    | .error _ => 0

/-- The name of a knockout round by its distance to the final. -/
def roundName (round total : Int) : String :=
  match total - round with
  | 0 => "Final"
  | 1 => "Semi-Finals"
  | 2 => "Quarter-Finals"
  | 3 => "Round of 16"
  | 4 => "Round of 32"
  | _ => s!"Round {round}"

/-- The quotient `n / d` taken in binary64 and rounded up; one that rounds to an infinity is
refused. -/
def ceilQuotient (n d : Int) : Except BracketError Int :=
  if Double.overflowBound * d.natAbs ≤ n.natAbs then .error .quotientOverflow
  else .ok (Binary64.ofFraction n d).ceil

/-- The number of groups and of teams per group. Without a group count (or with zero) there
are `⌈n / 4⌉` groups; a group holds `⌈n / groups⌉` teams, both quotients taken in binary64. -/
def groupLayout (n : Int) (groups : Option Int) : Except BracketError (Int × Int) := do
  if n < 1 then throw (.groupTeams n)
  let g ← match groups with
    | some 0 | none => ceilQuotient n 4
    | some g => pure g
  return (g, ← ceilQuotient n g)

/-- The pairings of round `r` among `n` slots (`n` even): slot 0 stays, the others rotate. -/
def circleRound (n r : Nat) : List (Nat × Nat) :=
  let rot := n - 1
  (0, (r + n - 2) % rot + 1) ::
    (List.range (n / 2 - 1)).map fun i => ((r + i) % rot + 1, (r + n - 3 - i) % rot + 1)

/-- The rounds of a round robin among `n` teams, as pairs of slots from 0. An odd count gets a
resting slot, whose pairings are left out. -/
def roundRobin (teams : Int) : Except BracketError (List (List (Nat × Nat))) :=
  if teams < 2 then .error (.roundRobinTeams teams)
  else
    let t := teams.toNat
    let n := if t % 2 = 0 then t else t + 1
    .ok ((List.range (n - 1)).map fun r =>
      (circleRound n r).filter fun (a, b) => a < t ∧ b < t)

end TournamentDraw.Shape
