import TournamentDraw.Binary64

/-!
# Shortest decimal text of a binary64 value

A value is written with the fewest significant digits that still read back as the same value:
for each digit count from one up, the two neighbours of the value on that decimal grid are
tried, and the first count with a neighbour inside the rounding interval wins. If both are
inside, the nearer wins, and of two equally near the one with an even last digit. The rounding
interval reaches halfway to the adjacent values and includes its ends when the significand is
even.

The text puts the point in place for decimal exponents from `-4` to `15` and keeps a `.0`
on whole numbers; other values are written as `d.ddde+XX` with at least two exponent digits.
-/

namespace TournamentDraw.Binary64

-- Powers and sums of numbers are the core ones, with no other instance in scope taking over.
attribute [local instance (2000)] instPowNat Zero.ofOfNat0

/-- The value with a 53-bit significand (or the subnormal exponent), for a nonzero value. -/
def normalize (x : Binary64) : Nat × Int :=
  let m := x.mant.natAbs
  let b := Nat.log2 m
  if b ≥ 52 then (m / 2 ^ (b - 52), x.exp + (b - 52 : Nat))
  else
    let s : Nat := min (52 - b) (x.exp - minExp).toNat
    (m * 2 ^ s, x.exp - s)

/-- The exponent `t` with `10 ^ t ≤ num / den < 10 ^ (t + 1)`, for positive `num` and `den`,
searched within `fuel` steps of zero. -/
def floorLog10 (num den : Nat) : Nat → Int → Int
  | 0, t => t
  | fuel + 1, t =>
    let (p, q) : Nat × Nat := if 0 ≤ t then (10 ^ t.toNat, 1) else (1, 10 ^ (-t).toNat)
    -- compare num / den with 10 ^ t and 10 ^ (t + 1)
    if num * q < den * p then floorLog10 num den fuel (t - 1)
    else if num * q ≥ den * p * 10 then floorLog10 num den fuel (t + 1)
    else t

/-- A power of ten as a fraction `(num, den)` of natural numbers. -/
def powTen (k : Int) : Nat × Nat :=
  if 0 ≤ k then (10 ^ k.toNat, 1) else (1, 10 ^ (-k).toNat)

/-- The digits and exponent `(c, k)` of the shortest decimal `c * 10 ^ k` that reads back as
the positive value `m * 2 ^ e` (`m` normalized). Everything is counted in quarter units
`2 ^ (e - 2)`: the value is `4m` of them, the interval reaches two above and two below, or one
below when the significand is the least of its binade. -/
def shortestDigits (m : Nat) (e : Int) : Nat × Int :=
  let (p, q) := powTwo (e - 2)
  let x := 4 * m
  let lo := if m = 2 ^ (52 : Nat) ∧ e > minExp then x - 1 else x - 2
  let hi := x + 2
  let even := m % 2 = 0
  -- whether `c * 10 ^ k` lies in the rounding interval
  let inside (c : Nat) (k : Int) : Bool :=
    let (a, b) := powTen k
    if even then lo * p * b ≤ c * a * q ∧ c * a * q ≤ hi * p * b
    else lo * p * b < c * a * q ∧ c * a * q < hi * p * b
  let t := floorLog10 (x * p) q 1200 0
  let rec search : Nat → Nat → Nat × Int
    | 0, _ => (m, e)
    | fuel + 1, n =>
      let k : Int := t - n + 1
      let (a, b) := powTen k
      let c := x * p * b / (q * a)
      let below := inside c k
      let above := inside (c + 1) k
      if below ∧ above then
        let downward := x * p * b - c * a * q
        let upward := (c + 1) * a * q - x * p * b
        if downward < upward ∨ (downward = upward ∧ c % 2 = 0) then (c, k) else (c + 1, k)
      else if below then (c, k)
      else if above then (c + 1, k)
      else search fuel (n + 1)
  search 17 1

/-- The digits without trailing zeros, with the exponent raised to match. -/
def stripZeros : Nat → Nat × Int → Nat × Int
  | 0, d => d
  | fuel + 1, (c, k) => if c ≠ 0 ∧ c % 10 = 0 then stripZeros fuel (c / 10, k + 1) else (c, k)

/-- The decimal text of a value: the shortest digits, placed as the module doc says. -/
def toText (x : Binary64) : String :=
  if x.mant = 0 then "0.0" else
  let sign := if x.mant < 0 then "-" else ""
  let (m, e) := normalize x
  let (c, k) := stripZeros 20 (shortestDigits m e)
  let ds := toString c
  let n := ds.length
  let E : Int := k + n - 1
  let body :=
    if -4 ≤ E ∧ E < 16 then
      if E ≥ n - 1 then ds ++ String.ofList (List.replicate (E - n + 1).toNat '0') ++ ".0"
      else if 0 ≤ E then
        String.ofList (ds.toList.take (E.toNat + 1)) ++ "." ++
          String.ofList (ds.toList.drop (E.toNat + 1))
      else "0." ++ String.ofList (List.replicate ((-E).toNat - 1) '0') ++ ds
    else
      let mantissa := if n > 1 then
          String.ofList (ds.toList.take 1) ++ "." ++ String.ofList (ds.toList.drop 1)
        else ds
      let ex := toString E.natAbs
      let ex := if ex.length < 2 then "0" ++ ex else ex
      mantissa ++ "e" ++ (if E < 0 then "-" else "+") ++ ex
  sign ++ body

end TournamentDraw.Binary64
