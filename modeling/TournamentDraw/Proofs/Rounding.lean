import TournamentDraw.Binary64
import Mathlib

/-!
# Rounding errs by at most half a unit in the last place

A binary64 value `mant * 2 ^ exp` stands for a rational number. Rounding the nonnegative
fraction `num / den` takes the exponent `e` that leaves 53 significant bits, or the subnormal
exponent, and rounds the fraction scaled by `2 ^ -e` to the nearest integer; so it errs upward
by at most `2 ^ e / 2`. Since `2 ^ e` is at most `2 ^ -52` times the fraction, or else the
least subnormal unit, a rounded fraction `x` is at most `x + x / 2 ^ 53 + 2 ^ minExp / 2`;
the product of two nonnegative values is such a rounding too. Truncating a nonnegative value
below `n + 1` gives at most `n`.
-/

namespace TournamentDraw.Binary64

/-- The rational number a value stands for. -/
def value (x : Binary64) : ℚ := x.mant * 2 ^ x.exp

theorem value_nonneg {x : Binary64} (hx : 0 ≤ x.mant) : 0 ≤ x.value := by
  have : (0 : ℚ) ≤ x.mant := by exact_mod_cast hx
  unfold value
  positivity

theorem powTwo_pos (e : Int) : 0 < (powTwo e).1 ∧ 0 < (powTwo e).2 := by
  unfold powTwo
  split <;> simp

theorem powTwo_ratio (e : Int) : ((powTwo e).1 : ℚ) / (powTwo e).2 = 2 ^ e := by
  unfold powTwo
  split
  · rename_i h
    rw [Nat.cast_one, div_one, Nat.cast_pow, Nat.cast_ofNat, ← zpow_natCast,
      Int.toNat_of_nonneg h]
  · rename_i h
    rw [Nat.cast_one, Nat.cast_pow, Nat.cast_ofNat, ← zpow_natCast,
      Int.toNat_of_nonneg (by omega), one_div, ← zpow_neg, neg_neg]

theorem value_toFraction (x : Binary64) :
    (x.toFraction.1 : ℚ) / x.toFraction.2 = x.value := by
  have h := powTwo_ratio x.exp
  simp only [toFraction, value, Int.cast_mul, Int.cast_natCast]
  rw [mul_div_assoc, h]

theorem toFraction_num_nonneg {x : Binary64} (hx : 0 ≤ x.mant) : 0 ≤ x.toFraction.1 := by
  have := (powTwo_pos x.exp).1
  simp only [toFraction]
  positivity

theorem toFraction_den_pos (x : Binary64) : 0 < x.toFraction.2 :=
  (powTwo_pos x.exp).2

/-- Rounding to the nearest integer errs by at most a half. -/
theorem roundHalfEven_le (num den : Nat) (hden : 0 < den) :
    2 * roundHalfEven num den * den ≤ 2 * num + den := by
  have hdm := Nat.div_add_mod num den
  have hlt := Nat.mod_lt num hden
  unfold roundHalfEven
  dsimp only
  generalize num / den = q at *
  generalize num % den = r at *
  split
  · -- rounding up needs a remainder of at least half the denominator
    have : den ≤ 2 * r := by omega
    nlinarith
  · nlinarith

/-- The exponent `floorLog2` picks leaves the fraction at or above its power of two. -/
theorem floorLog2_le (num den : Nat) (hnum : 0 < num) (hden : 0 < den) :
    (2 : ℚ) ^ floorLog2 num den ≤ num / den := by
  have ha := Nat.log2_self_le (Nat.pos_iff_ne_zero.1 hnum)
  have hb := @Nat.lt_log2_self den
  have hr := powTwo_ratio ((Nat.log2 num : Int) - (Nat.log2 den : Int))
  obtain ⟨hp, hq⟩ := powTwo_pos ((Nat.log2 num : Int) - (Nat.log2 den : Int))
  unfold floorLog2
  dsimp only
  split
  · -- one exponent down: `num / den` exceeds `2 ^ log2 num / 2 ^ (log2 den + 1)`
    have : (2 : ℚ) ^ ((Nat.log2 num : Int) - (Nat.log2 den : Int) - 1) =
        (2 : ℚ) ^ Nat.log2 num / 2 ^ (Nat.log2 den + 1) := by
      rw [zpow_sub₀ two_ne_zero, zpow_sub₀ two_ne_zero, zpow_natCast, zpow_natCast, pow_succ,
        zpow_one, div_div]
    rw [this]
    have ha' : ((2 ^ Nat.log2 num : Nat) : ℚ) ≤ num := by exact_mod_cast ha
    have hb' : (den : ℚ) ≤ ((2 ^ (Nat.log2 den + 1) : Nat) : ℚ) := by exact_mod_cast hb.le
    push_cast at ha' hb'
    exact div_le_div₀ (by positivity) ha' (by exact_mod_cast hden) hb'
  · rename_i h
    rw [← hr, div_le_div_iff₀ (by exact_mod_cast hq) (by exact_mod_cast hden)]
    have h' := not_lt.1 h
    rw [mul_comm] at h'
    exact_mod_cast h'

theorem zpow_max_le (a b : Int) : (2 : ℚ) ^ max a b ≤ 2 ^ a + 2 ^ b := by
  rcases max_choice a b with h | h <;> rw [h]
  · linarith [zpow_pos (two_pos : (0 : ℚ) < 2) b]
  · linarith [zpow_pos (two_pos : (0 : ℚ) < 2) a]

/-- **Rounding a nonnegative fraction errs upward by at most half a unit in the last place**:
a relative `2 ^ -53` of the fraction, or half the least subnormal unit. -/
theorem ofNatFraction_value_le (num den : Nat) (hden : 0 < den) :
    (ofNatFraction num den).value ≤
      (num : ℚ) / den + (num : ℚ) / den / 2 ^ 53 + 2 ^ minExp / 2 := by
  unfold ofNatFraction
  split
  · simp only [value, Int.cast_zero, zero_mul]
    positivity
  · rename_i h0
    have hnum : 0 < num := by omega
    set e := max (floorLog2 num den - ((precision - 1 : Nat) : Int)) minExp
    obtain ⟨hp, hq⟩ := powTwo_pos e
    have hratio := powTwo_ratio e
    dsimp only
    set p := (powTwo e).1
    set q := (powTwo e).2
    have hr := roundHalfEven_le (num * q) (den * p) (Nat.mul_pos hden hp)
    set r := roundHalfEven (num * q) (den * p)
    -- the rounded significand is within a half of the scaled fraction
    have hr' : (r : ℚ) ≤ (num * q : ℚ) / (den * p) + 1 / 2 := by
      rw [div_add_div _ _ (by positivity) (by norm_num), le_div_iff₀ (by positivity)]
      exact_mod_cast (by linarith : r * (den * p * 2) ≤ (num * q) * 2 + den * p * 1)
    -- the unit `2 ^ e` is `2 ^ -52` of the fraction's leading power, or the subnormal unit
    have hulp : (2 : ℚ) ^ e ≤ (num : ℚ) / den / 2 ^ 52 + 2 ^ minExp := by
      have hk := floorLog2_le num den hnum hden
      calc (2 : ℚ) ^ e ≤ 2 ^ (floorLog2 num den - 52) + 2 ^ minExp := zpow_max_le _ _
        _ = 2 ^ floorLog2 num den / 2 ^ 52 + 2 ^ minExp := by
          rw [zpow_sub₀ two_ne_zero]
          norm_cast
        _ ≤ (num : ℚ) / den / 2 ^ 52 + 2 ^ minExp := by gcongr
    have hval : (((r : Nat) : Int) : ℚ) * 2 ^ e = r * (p / q) := by
      rw [hratio]
      push_cast
      ring
    simp only [value]
    rw [hval]
    calc (r : ℚ) * (p / q) ≤ ((num * q : ℚ) / (den * p) + 1 / 2) * (p / q) := by
          gcongr
      _ = (num : ℚ) / den + 2 ^ e / 2 := by
          rw [← hratio]
          field_simp
      _ ≤ (num : ℚ) / den + ((num : ℚ) / den / 2 ^ 52 + 2 ^ minExp) / 2 := by
          gcongr
      _ = (num : ℚ) / den + (num : ℚ) / den / 2 ^ 53 + 2 ^ minExp / 2 := by
          ring

theorem ofNatFraction_mant_nonneg (num den : Nat) : 0 ≤ (ofNatFraction num den).mant := by
  unfold ofNatFraction
  split
  · exact le_refl 0
  · exact Int.natCast_nonneg _

theorem ofFraction_of_nonneg {num den : Int} (hnum : 0 ≤ num) (hden : 0 < den) :
    ofFraction num den = ofNatFraction num.natAbs den.natAbs := by
  have hsign : (num < 0) = (den < 0) := by simp [not_lt.2 hnum, not_lt.2 hden.le]
  simp only [ofFraction, if_pos hsign]

/-- The product of two nonnegative values is nonnegative and errs upward like any rounding. -/
theorem mul_value_le {x y : Binary64} (hx : 0 ≤ x.mant) (hy : 0 ≤ y.mant) :
    0 ≤ (mul x y).mant ∧
      (mul x y).value ≤
        x.value * y.value + x.value * y.value / 2 ^ 53 + 2 ^ minExp / 2 := by
  have ha := toFraction_num_nonneg hx
  have hc := toFraction_num_nonneg hy
  have hb := toFraction_den_pos x
  have hd := toFraction_den_pos y
  -- the exact product is the fraction that gets rounded
  have hfrac : ((x.toFraction.1 * y.toFraction.1).natAbs : ℚ) /
      ((x.toFraction.2 * y.toFraction.2 : Nat) : Int).natAbs = x.value * y.value := by
    rw [Int.natAbs_natCast, ← value_toFraction, ← value_toFraction, Nat.cast_natAbs,
      abs_of_nonneg (mul_nonneg ha hc)]
    push_cast
    field_simp
  simp only [mul]
  rw [ofFraction_of_nonneg (mul_nonneg ha hc) (by positivity)]
  refine ⟨ofNatFraction_mant_nonneg _ _, ?_⟩
  have h := ofNatFraction_value_le (x.toFraction.1 * y.toFraction.1).natAbs
    ((x.toFraction.2 * y.toFraction.2 : Nat) : Int).natAbs
    (by rw [Int.natAbs_natCast]; exact Nat.mul_pos hb hd)
  rwa [hfrac] at h

theorem trunc_nonneg {x : Binary64} (hx : 0 ≤ x.mant) : 0 ≤ x.trunc := by
  have ha := toFraction_num_nonneg hx
  simp only [trunc]
  rw [Int.tdiv_eq_ediv_of_nonneg ha]
  exact Int.ediv_nonneg ha (Int.natCast_nonneg _)

/-- A nonnegative value below `n + 1` truncates to at most `n`. -/
theorem trunc_le_of_value_lt {x : Binary64} (hx : 0 ≤ x.mant) {n : Int}
    (h : x.value < n + 1) : x.trunc ≤ n := by
  have ha := toFraction_num_nonneg hx
  have hb := toFraction_den_pos x
  rw [← value_toFraction, div_lt_iff₀ (by exact_mod_cast hb)] at h
  simp only [trunc]
  rw [Int.tdiv_eq_ediv_of_nonneg ha, Int.ediv_le_iff_le_mul (by exact_mod_cast hb)]
  have h' : x.toFraction.1 < (n + 1) * (x.toFraction.2 : Int) := by exact_mod_cast h
  linarith

end TournamentDraw.Binary64
