import TournamentDraw.Draw.Hash
import Mathlib

/-!
# The seed hash is one polynomial, wrapped once

The seed hash folds `h ↦ 31 * h + c` over the code points of a text and wraps the running value
to a signed 32-bit word after every step. Wrapping is reduction modulo `2 ^ 32` onto
`[-2 ^ 31, 2 ^ 31)`, and reduction commutes with the step, so wrapping after every step agrees
with wrapping once at the end: the hash is the absolute value of the wrapped number whose
base-31 digits are the code points (`seedHash_eq_wrapped_sum`). It therefore lies in
`[0, 2 ^ 31]`, and reaches `2 ^ 31` only from the word `-2 ^ 31`.
-/

open scoped BigOperators

namespace TournamentDraw.Draw

/-- The code points read as the digits of a number in base 31, the first one leading. -/
def pointSum (cs : List Nat) : Int :=
  ∑ i : Fin cs.length, (cs[i] : Int) * 31 ^ (cs.length - 1 - i)

/-- The rolling hash without wrapping. -/
def rollingStep (h : Int) (c : Nat) : Int :=
  31 * h + c

/-! ### The wrapped word -/

theorem wrapWord_lower (x : Int) : -2 ^ 31 ≤ wrapWord x := by
  unfold wrapWord
  omega

theorem wrapWord_upper (x : Int) : wrapWord x < 2 ^ 31 := by
  unfold wrapWord
  omega

theorem wrapWord_modEq (x : Int) : wrapWord x ≡ x [ZMOD 2 ^ 32] := by
  unfold wrapWord Int.ModEq
  omega

/-- Numbers that agree modulo `2 ^ 32` wrap to the same word. -/
theorem wrapWord_eq_of_modEq {x y : Int} (h : x ≡ y [ZMOD 2 ^ 32]) : wrapWord x = wrapWord y := by
  unfold wrapWord
  unfold Int.ModEq at h
  omega

/-- A step on a wrapped word wraps what the step gives on the word before wrapping. -/
theorem hashStep_wrapWord (h : Int) (c : Nat) :
    hashStep (wrapWord h) c = wrapWord (rollingStep h c) := by
  refine wrapWord_eq_of_modEq ?_
  exact ((wrapWord_modEq h).mul_left 31).add_right _

/-! ### Wrapping once -/

/-- Wrapping after every step agrees with wrapping once at the end, from any start. -/
theorem foldl_hashStep_wrapWord (cs : List Nat) (h : Int) :
    cs.foldl hashStep (wrapWord h) = wrapWord (cs.foldl rollingStep h) := by
  induction cs generalizing h with
  | nil => rfl
  | cons c cs ih =>
    rw [List.foldl_cons, List.foldl_cons, hashStep_wrapWord, ih]

/-- A leading digit weighs `31` to the number of digits after it. -/
theorem pointSum_cons (c : Nat) (cs : List Nat) :
    pointSum (c :: cs) = c * 31 ^ cs.length + pointSum cs := by
  show ∑ i : Fin (cs.length + 1), ((c :: cs)[i] : Int) * 31 ^ (cs.length + 1 - 1 - i) = _
  -- the leading term is `c * 31 ^ cs.length` as it stands; the others move down one place
  rw [Fin.sum_univ_succ, pointSum]
  congr 1
  refine Finset.sum_congr rfl fun i _ => ?_
  simp only [Fin.val_succ]
  congr 2
  omega

/-- The unwrapped fold is the start shifted past every digit, plus the digits' number. -/
theorem foldl_rollingStep (cs : List Nat) (h : Int) :
    cs.foldl rollingStep h = 31 ^ cs.length * h + pointSum cs := by
  induction cs generalizing h with
  | nil => simp [pointSum]
  | cons c cs ih =>
    rw [List.foldl_cons, ih, pointSum_cons, rollingStep, List.length_cons, pow_succ]
    ring

/-- The seed hash folds to the wrapped number of the code points. -/
theorem foldl_hashStep_zero (cs : List Nat) : cs.foldl hashStep 0 = wrapWord (pointSum cs) := by
  have h0 : wrapWord 0 = 0 := by decide
  rw [← h0, foldl_hashStep_wrapWord, foldl_rollingStep, mul_zero, zero_add]

/-! ### The hash -/

/-- **The seed hash is the wrapped polynomial.** For every text with code points
`c₀, …, c_(k-1)`, folding with a wrap after every step gives the word `w` that represents
`∑ cᵢ * 31 ^ (k - 1 - i)` modulo `2 ^ 32` in `[-2 ^ 31, 2 ^ 31)`, and the hash is `|w|`. So the
hash is at most `2 ^ 31`, and equal to it exactly when `w = -2 ^ 31`. -/
theorem seedHash_eq_wrapped_sum (text : String) :
    (Text.codePoints text).foldl hashStep 0 = wrapWord (pointSum (Text.codePoints text)) ∧
    (seedHash text : Int) = |wrapWord (pointSum (Text.codePoints text))| ∧
    (-2 ^ 31 ≤ wrapWord (pointSum (Text.codePoints text)) ∧
      wrapWord (pointSum (Text.codePoints text)) < 2 ^ 31 ∧
      wrapWord (pointSum (Text.codePoints text)) ≡ pointSum (Text.codePoints text) [ZMOD 2 ^ 32]) ∧
    seedHash text ≤ 2 ^ 31 ∧
    (seedHash text = 2 ^ 31 ↔ wrapWord (pointSum (Text.codePoints text)) = -2 ^ 31) := by
  have hfold := foldl_hashStep_zero (Text.codePoints text)
  have hhash : seedHash text = (wrapWord (pointSum (Text.codePoints text))).natAbs := by
    rw [seedHash, hfold]
  have hlo := wrapWord_lower (pointSum (Text.codePoints text))
  have hhi := wrapWord_upper (pointSum (Text.codePoints text))
  refine ⟨hfold, by rw [hhash, Int.natCast_natAbs], ⟨hlo, hhi, wrapWord_modEq _⟩, ?_, ?_⟩
  all_goals rw [hhash]; omega

example : seedHash "ab" = 3105 := by decide

end TournamentDraw.Draw
