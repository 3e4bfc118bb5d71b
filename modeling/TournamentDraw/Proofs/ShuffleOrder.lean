import TournamentDraw.Draw.Shuffle
import TournamentDraw.Proofs.Rounding

/-!
# The seeded shuffle is a permutation fixed by the length and the seed's hash

One step of the Fisher–Yates pass swaps two places of the array, so the pass as a whole
rearranges the places by a product of swaps (`passPerm`). Which places are swapped is decided
by the generator alone, started at the seed's hash, and by the number of items: the shuffle
picks item `shufflePerm n h k` for place `k`, and `shufflePerm` never looks at the items.

The generator reduces its state modulo `233280`, and the swap partner of position `i` is the
truncation of `(state / 233280) * (i + 1)`, both rounded to binary64. Each rounding errs upward
by at most a relative `2 ^ -53`, far less than the gap of `1 / 233280` between the largest
state's quotient and one, so the partner never lies past `i`.
-/

namespace TournamentDraw.Draw

open Binary64

theorem lcgNext_lt (state : Nat) : lcgNext state < lcgModulus :=
  Nat.mod_lt _ (by decide)

theorem half_subnormal_le : (2 : ℚ) ^ minExp / 2 ≤ 1 / 2 ^ 60 := by
  have h : (2 : ℚ) ^ minExp ≤ 2 ^ (-60 : Int) :=
    zpow_le_zpow_right₀ (by norm_num) (by decide)
  rw [zpow_neg] at h
  rw [one_div]
  linarith [show (0 : ℚ) ≤ 2 ^ minExp by positivity]

/-- A state of the generator over the modulus, rounded to binary64: the largest state's quotient
is `233279 / 233280`, and rounding adds at most a relative `2 ^ -53` and half a subnormal unit. -/
theorem quotient_value_le {state : Nat} (hs : state < lcgModulus) :
    (ofNatFraction state lcgModulus).value ≤ 233279 / 233280 * (1 + 1 / 2 ^ 53) + 1 / 2 ^ 60 := by
  have hv := ofNatFraction_value_le state lcgModulus (by decide)
  have hc : (state : ℚ) / lcgModulus ≤ 233279 / 233280 := by
    have : (state : ℚ) ≤ 233279 := by
      have : state ≤ 233279 := by unfold lcgModulus at hs; omega
      exact_mod_cast this
    simp only [lcgModulus, Nat.cast_ofNat]
    linarith
  have : (state : ℚ) / lcgModulus / 2 ^ 53 ≤ 233279 / 233280 / 2 ^ 53 := by gcongr
  linarith [half_subnormal_le]

/-- A positive count rounded to binary64 exceeds itself by at most a relative
`2 ^ -53 + 2 ^ -60`. -/
theorem count_value_le {n : Nat} (hn : 1 ≤ n) :
    (ofNatFraction n 1).value ≤ n * (1 + 1 / 2 ^ 53 + 1 / 2 ^ 60) := by
  have hv := ofNatFraction_value_le n 1 one_pos
  rw [Nat.cast_one, div_one] at hv
  have hn' : (1 : ℚ) ≤ n := by exact_mod_cast hn
  have : 1 / (2 : ℚ) ^ 60 ≤ n / 2 ^ 60 := by gcongr
  linarith [half_subnormal_le]

/-- **The swap partner lies in `[0, i]`** for every state of the generator below the
modulus: the rounded product `(state / 233280) * (i + 1)` stays below `i + 1`. -/
theorem swap_trunc_bounds {state : Nat} (hs : state < lcgModulus) (i : Nat) :
    0 ≤ (mul (ofFraction state lcgModulus) (ofInt (i + 1))).trunc ∧
      (mul (ofFraction state lcgModulus) (ofInt (i + 1))).trunc ≤ i := by
  have hq := @ofFraction_of_nonneg state lcgModulus (by omega) (by decide)
  have hI := @ofFraction_of_nonneg ((i + 1 : Nat) : Int) 1 (by omega) (by decide)
  rw [show ((i : Int) + 1) = ((i + 1 : Nat) : Int) by push_cast; rfl]
  unfold ofInt
  rw [hq, hI]
  simp only [Int.natAbs_natCast, Int.natAbs_one]
  have hq0 := ofNatFraction_mant_nonneg state lcgModulus
  have hI0 := ofNatFraction_mant_nonneg (i + 1) 1
  obtain ⟨hm0, hm⟩ := mul_value_le hq0 hI0
  refine ⟨trunc_nonneg hm0, trunc_le_of_value_lt hm0 ?_⟩
  have ha := quotient_value_le hs
  have hb := count_value_le (Nat.le_add_left 1 i)
  have hIv0 := value_nonneg hI0
  have hn : (1 : ℚ) ≤ ((i + 1 : Nat) : ℚ) := by simp
  rw [show ((i : Int) : ℚ) + 1 = ((i + 1 : Nat) : ℚ) by push_cast; rfl]
  generalize ofNatFraction state lcgModulus = q at *
  generalize ofNatFraction (i + 1) 1 = I at *
  generalize ((i + 1 : Nat) : ℚ) = n at *
  -- three roundings, each at most a relative `2 ^ -53` up, keep the product below `n`
  have hP : q.value * I.value ≤
      (233279 / 233280 * (1 + 1 / 2 ^ 53) + 1 / 2 ^ 60) * (n * (1 + 1 / 2 ^ 53 + 1 / 2 ^ 60)) :=
    mul_le_mul ha hb hIv0 (by positivity)
  have hK : (233279 / 233280 * (1 + 1 / 2 ^ 53) + 1 / 2 ^ 60) * (1 + 1 / 2 ^ 53 + 1 / 2 ^ 60) *
      (1 + 1 / 2 ^ 53) + 1 / 2 ^ 60 < (1 : ℚ) := by norm_num
  have h60 : 1 / (2 : ℚ) ^ 60 ≤ n / 2 ^ 60 := by gcongr
  have hP53 := div_le_div_of_nonneg_right hP (by positivity : (0 : ℚ) ≤ 2 ^ 53)
  linarith [half_subnormal_le]

variable {α : Type}

/-- Swapping places `i` and `j` of `n`, or leaving all in place when either is no place. -/
def swapPerm (n i j : Nat) : Equiv.Perm (Fin n) :=
  if h : i < n ∧ j < n then Equiv.swap ⟨i, h.1⟩ ⟨j, h.2⟩ else 1

theorem swapAt_ofFn {n : Nat} (f : Fin n → α) (i j : Nat) :
    swapAt (Array.ofFn f) i j = Array.ofFn (f ∘ swapPerm n i j) := by
  unfold swapAt swapPerm
  by_cases h : i < n ∧ j < n
  · rw [dif_pos (by simpa using h.1), dif_pos (by simpa using h.2), dif_pos h]
    apply Array.ext
    · simp
    · intro k hk _
      simp only [Array.getElem_swap, Array.getElem_ofFn, Function.comp_apply,
        Equiv.swap_apply_def]
      split_ifs <;> simp_all [Fin.ext_iff]
  · -- a place out of range leaves the array as it is
    rw [dif_neg h]
    by_cases hi : i < n
    · have hj : ¬j < n := fun hj => h ⟨hi, hj⟩
      rw [dif_pos (by simpa using hi), dif_neg (by simpa using hj)]
      rfl
    · rw [dif_neg (by simpa using hi)]
      rfl

/-- The rearrangement a pass makes from position `i` down, with the generator at `state`:
the swap of the first step, then those of the rest of the pass. -/
def passPerm (n : Nat) : Nat → Nat → Equiv.Perm (Fin n)
  | 0, _ => 1
  | i + 1, state =>
    swapPerm n (i + 1) (swapIndex (lcgNext state) (i + 1)) * passPerm n i (lcgNext state)

/-- A pass picks, for each place, the item of the place its permutation names. -/
theorem shuffleFrom_ofFn {n : Nat} (f : Fin n → α) (i state : Nat) :
    shuffleFrom i state (Array.ofFn f) = Array.ofFn (f ∘ passPerm n i state) := by
  induction i generalizing state f with
  | zero => rfl
  | succ i ih =>
    simp only [shuffleFrom, passPerm, swapAt_ofFn, ih]
    rfl

/-- The permutation of `n` places that the shuffle makes under a seed of hash `h`. -/
def shufflePerm (n h : Nat) : Equiv.Perm (Fin n) :=
  passPerm n (n - 1) h

/-- **The seeded shuffle is a permutation fixed by the length and the seed's hash.** Place `k`
of the answer holds item `shufflePerm n h k` of the items, where `n` is their number and `h`
the hash of the seed, so the items themselves decide nothing (and, being a value, are left as
they are). In every step the generator's state lies below `233280`, and the swap partner of
position `i`, the truncated binary64 product, lies between `0` and `i`. -/
theorem seeded_shuffle_permutes_by_length_and_hash (items : List α) (seed : String) :
    seededShuffle items seed =
        List.ofFn (fun k => items.get (shufflePerm items.length (seedHash seed) k)) ∧
      ∀ state i : Nat, lcgNext state < lcgModulus ∧
        0 ≤ (mul (ofFraction (lcgNext state) lcgModulus) (ofInt (i + 1))).trunc ∧
        (mul (ofFraction (lcgNext state) lcgModulus) (ofInt (i + 1))).trunc ≤ i := by
  refine ⟨?_, fun state i => ⟨lcgNext_lt state, swap_trunc_bounds (lcgNext_lt state) i⟩⟩
  have h : items.toArray = Array.ofFn items.get := by
    apply Array.ext <;> simp
  rw [seededShuffle, h, shuffleFrom_ofFn, Array.toList_ofFn]
  rfl

end TournamentDraw.Draw
