import TournamentDraw.Binary64.Shortest

/-!
# Binary64 numbers with their special values

A binary64 number is finite, a zero with a minus sign, an infinity of either sign, or not a
number. A fraction rounds to the nearest finite value unless its magnitude reaches halfway
between the greatest finite value and `2 ^ 1024`, where it becomes an infinity; a negative
fraction that rounds to zero keeps its sign. A decimal numeral far outside the finite range
is decided by its number of digits alone, so no large power of ten is computed for it.
-/

namespace TournamentDraw

-- Powers and sums of numbers are the core ones, with no other instance in scope taking over.
attribute [local instance (2000)] instPowNat Zero.ofOfNat0

/-- A binary64 number: finite, a negative zero, an infinity, or not a number. -/
inductive Double where
  | finite (x : Binary64)
  | negZero
  | infinity (negative : Bool)
  | nan
  deriving Repr, DecidableEq, Inhabited

namespace Double

/-- The least magnitude that rounds to an infinity: `2 ^ 1024 - 2 ^ 970`, halfway between the
greatest finite value and `2 ^ 1024`. -/
def overflowBound : Nat := 2 ^ (1024 : Nat) - 2 ^ (970 : Nat)

/-- The zero of a sign. -/
def zero (negative : Bool) : Double :=
  if negative then .negZero else .finite ⟨0, 0⟩

/-- The number nearest to `num / den`, for a positive `den`. -/
def ofFraction (num : Int) (den : Nat) : Double :=
  if overflowBound * den ≤ num.natAbs then .infinity (num < 0)
  else
    let x := Binary64.ofFraction num den
    if x.mant = 0 then zero (num < 0) else .finite x

/-- The number nearest to `m * 10 ^ e`, negated if `negative`. Past `10 ^ 310` every such
number is an infinity and below `10 ^ -330` a zero, whatever its digits. -/
def ofDecimal (negative : Bool) (m : Nat) (e : Int) : Double :=
  if m = 0 then zero negative else
    let size : Int := (toString m).length
    if 310 < e + size then .infinity negative
    else if e + size < -330 then zero negative
    else
      let n : Int := if negative then -(m : Int) else m
      if 0 ≤ e then ofFraction (n * 10 ^ e.toNat) 1 else ofFraction n (10 ^ (-e).toNat)

/-- The number as text: the shortest decimal of a finite value, `-0.0`, `inf`, `-inf`,
`nan`. -/
def toText : Double → String
  | .finite x => x.toText
  | .negZero => "-0.0"
  | .infinity false => "inf"
  | .infinity true => "-inf"
  | .nan => "nan"

/-- The number as JSON text, where the special values are `Infinity`, `-Infinity` and
`NaN`. -/
def jsonText : Double → String
  | .infinity false => "Infinity"
  | .infinity true => "-Infinity"
  | .nan => "NaN"
  | x => x.toText

/-- The number with its sign changed. -/
def neg : Double → Double
  | .finite x => if x.mant = 0 then .negZero else .finite ⟨-x.mant, x.exp⟩
  | .negZero => .finite ⟨0, 0⟩
  | .infinity n => .infinity (!n)
  | .nan => .nan

/-- The sum of two numbers, rounded: infinities of opposite signs give not a number, and two
zeros give a negative zero only when both are negative. -/
def add : Double → Double → Double
  | .nan, _ | _, .nan => .nan
  | .infinity a, .infinity b => if a = b then .infinity a else .nan
  | .infinity a, _ | _, .infinity a => .infinity a
  | .negZero, y => y
  | x, .negZero => x
  | .finite x, .finite y =>
    let (a, b) := x.toFraction
    let (c, d) := y.toFraction
    ofFraction (a * d + c * b) (b * d)

/-- The product of a number and a positive whole number, rounded. -/
def mulNat (x : Double) (k : Nat) : Double :=
  match x with
  | .finite v => let (a, b) := v.toFraction; ofFraction (a * k) b
  | other => other

/-- Whether the number is a zero of either sign. -/
def isZero : Double → Bool
  | .finite x => x.mant == 0
  | .negZero => true
  | _ => false

end Double

end TournamentDraw
