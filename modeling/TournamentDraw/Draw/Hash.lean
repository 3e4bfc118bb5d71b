import TournamentDraw.Text.CodePoint

/-!
# The seed hash

A seed text is folded into a number by the rolling rule `h ↦ 31 * h + c` over its code points,
the running value wrapped to a signed 32-bit word after every step; the hash is the absolute
value of the last word, so it lies in `[0, 2 ^ 31]`.
-/

namespace TournamentDraw.Draw

-- Powers and sums of numbers are the core ones, with no other instance in scope taking over.
attribute [local instance (2000)] instPowNat Zero.ofOfNat0

/-- An integer wrapped to the signed 32-bit range `[-2 ^ 31, 2 ^ 31)`. -/
def wrapWord (x : Int) : Int :=
  (x + 2 ^ (31 : Nat)) % 2 ^ (32 : Nat) - 2 ^ (31 : Nat)

/-- One step of the rolling hash: the word so far times 31, plus the code point. -/
def hashStep (h : Int) (c : Nat) : Int :=
  wrapWord (31 * h + c)

/-- The hash of a seed text, over its code points (lone surrogates included). -/
def seedHash (text : String) : Nat :=
  ((Text.codePoints text).foldl hashStep 0).natAbs

end TournamentDraw.Draw
