/-!
# Exact binary64 rounding

The draw arithmetic divides integers and multiplies the quotient by a count in double
precision, and then truncates or rounds up. This module computes those steps exactly: a value
is an integer significand times a power of two, and every operation rounds an exact rational
to the nearest value with a 53-bit significand, a tie going to the even significand.

The quantities of this library stay far below `2 ^ 1024`, so no operation here overflows;
the smallest exponent is that of the subnormal numbers, `-1074`.
-/

namespace TournamentDraw

-- Powers and sums of numbers are the core ones, with no other instance in scope taking over.
attribute [local instance (2000)] instPowNat Zero.ofOfNat0

/-- A finite binary64 value `mant * 2 ^ exp`. -/
structure Binary64 where
  mant : Int
  exp : Int
  deriving Repr, DecidableEq

namespace Binary64

/-- Bits of a significand. -/
def precision : Nat := 53

/-- The exponent of the least subnormal number. -/
def minExp : Int := -1074

/-- An integer power of two as a fraction `num / den` of natural numbers. -/
def powTwo (e : Int) : Nat × Nat :=
  if 0 ≤ e then (2 ^ e.toNat, 1) else (1, 2 ^ (-e).toNat)

/-- The quotient of `num` by `den` rounded to the nearest integer, a tie going to the even one. -/
def roundHalfEven (num den : Nat) : Nat :=
  let q := num / den
  let r := num % den
  if 2 * r > den ∨ (2 * r = den ∧ q % 2 = 1) then q + 1 else q

/-- The exponent `k` with `2 ^ k ≤ num / den < 2 ^ (k + 1)`, for positive `num` and `den`. -/
def floorLog2 (num den : Nat) : Int :=
  let k : Int := (Nat.log2 num : Int) - (Nat.log2 den : Int)
  let (p, q) := powTwo k
  -- `num / den` lies in `[2 ^ (k - 1), 2 ^ (k + 1))`; one comparison decides.
  if num * q < den * p then k - 1 else k

/-- The binary64 value nearest to the nonnegative fraction `num / den`. -/
def ofNatFraction (num den : Nat) : Binary64 :=
  if num = 0 ∨ den = 0 then ⟨0, 0⟩ else
  let e := max (floorLog2 num den - (precision - 1 : Nat)) minExp
  let (p, q) := powTwo e
  ⟨(roundHalfEven (num * q) (den * p) : Nat), e⟩

/-- The binary64 value nearest to the fraction `num / den`; a zero denominator gives zero. -/
def ofFraction (num den : Int) : Binary64 :=
  let v := ofNatFraction num.natAbs den.natAbs
  if (num < 0) = (den < 0) then v else ⟨-v.mant, v.exp⟩

/-- The binary64 value nearest to an integer. -/
def ofInt (n : Int) : Binary64 := ofFraction n 1

/-- The value as a fraction with a positive power of two below. -/
def toFraction (x : Binary64) : Int × Nat :=
  let (p, q) := powTwo x.exp
  (x.mant * p, q)

/-- The product of two values, rounded. -/
def mul (x y : Binary64) : Binary64 :=
  let (a, b) := x.toFraction
  let (c, d) := y.toFraction
  ofFraction (a * c) (b * d)

/-- The sum of two values, rounded. -/
def add (x y : Binary64) : Binary64 :=
  let (a, b) := x.toFraction
  let (c, d) := y.toFraction
  ofFraction (a * d + c * b) (b * d)

/-- The value with its fraction dropped, toward zero. -/
def trunc (x : Binary64) : Int :=
  let (a, b) := x.toFraction
  a.tdiv (b : Int)

/-- The least integer not below the value. -/
def ceil (x : Binary64) : Int :=
  let (a, b) := x.toFraction
  Int.neg ((-a).fdiv (b : Int))

end Binary64

end TournamentDraw
