import TournamentDraw.Bracket.Shape
import Mathlib

/-!
# The circle method

A round robin among `n` teams is played in rounds of pairings of their slots `0, …, n - 1`.
The circle method keeps slot 0 in place and turns the others: in round `r` of an even count
`n`, place `j` of the turn holds slot `(r + j) mod (n - 1) + 1` (`circleSlot`), slot 0 meets
the last place, and place `i` meets place `n - 3 - i`, its mirror image about the middle. An
odd count is played as the next even one, and the pairings of the added slot are left out: its
opponent rests in that round.

Each round is a perfect matching of the slots (`nodup_slotsOf_circleRound`,
`mem_slotsOf_circleRound`). Two slots away from the centre meet in the round `r` with
`2 r ≡ a + b (mod n - 1)`, and slot 0 meets slot `b` in round `b mod (n - 1)`; as `n - 1` is odd,
two is invertible and that round is unique (`meets_iff_eq_meetRound`).

Main statement: `roundRobin_is_one_factorisation`. The schedule has `n - 1` rounds for an even
count and `n` for an odd one, each round `⌊n / 2⌋` pairs of distinct slots below `n`, every
two slots meet in exactly one pair of the whole schedule, and with an odd count every slot rests
in exactly one round.
-/

namespace TournamentDraw.Shape

/-- The slots a round of pairings occupies, pair by pair. -/
def slotsOf (round : List (Nat × Nat)) : List Nat :=
  round.flatMap fun p => [p.1, p.2]

@[simp] theorem slotsOf_nil : slotsOf [] = [] := rfl

@[simp] theorem slotsOf_cons (p : Nat × Nat) (round : List (Nat × Nat)) :
    slotsOf (p :: round) = p.1 :: p.2 :: slotsOf round := rfl

theorem mem_slotsOf {round : List (Nat × Nat)} {a : Nat} :
    a ∈ slotsOf round ↔ ∃ p ∈ round, p.1 = a ∨ p.2 = a := by
  simp only [slotsOf, List.mem_flatMap, List.mem_cons, List.not_mem_nil, or_false]
  exact exists_congr fun p => and_congr_right fun _ => by constructor <;> rintro (h | h) <;>
    first | exact .inl h.symm | exact .inr h.symm

theorem length_slotsOf (round : List (Nat × Nat)) : (slotsOf round).length = 2 * round.length := by
  induction round with
  | nil => rfl
  | cons p round ih => simp [ih]; omega

/-- In a round whose slots are distinct, a slot stands in one pair at most. -/
theorem eq_of_mem_slotsOf {round : List (Nat × Nat)} (hnd : (slotsOf round).Nodup) {a : Nat}
    {p q : Nat × Nat} (hp : p ∈ round) (hq : q ∈ round) (hpa : p.1 = a ∨ p.2 = a)
    (hqa : q.1 = a ∨ q.2 = a) : p = q := by
  induction round with
  | nil => cases hp
  | cons x round ih =>
    simp only [slotsOf_cons, List.nodup_cons, List.mem_cons, not_or] at hnd
    obtain ⟨⟨hx12, hx1⟩, hx2, hnd⟩ := hnd
    have hout : ∀ y ∈ round, (y.1 = a ∨ y.2 = a) → x.1 ≠ a ∧ x.2 ≠ a := fun y hy hya => by
      have ha : a ∈ slotsOf round := mem_slotsOf.2 ⟨y, hy, hya⟩
      exact ⟨fun h => hx1 (h ▸ ha), fun h => hx2 (h ▸ ha)⟩
    rcases List.mem_cons.1 hp with hpx | hp' <;> rcases List.mem_cons.1 hq with hqx | hq'
    · rw [hpx, hqx]
    · have := hout q hq' hqa
      subst hpx
      omega
    · have := hout p hp' hpa
      subst hqx
      omega
    · exact ih hnd hp' hq'

/-- The pairs of a round that hold a given slot are counted by the slot's occurrences. -/
theorem countP_le_count_slotsOf (round : List (Nat × Nat)) {P : Nat × Nat → Bool} {a : Nat}
    (hP : ∀ p ∈ round, P p = true → p.1 = a ∨ p.2 = a) :
    round.countP P ≤ (slotsOf round).count a := by
  induction round with
  | nil => simp
  | cons p round ih =>
    have ih := ih fun q hq => hP q (List.mem_cons_of_mem p hq)
    have := hP p List.mem_cons_self
    simp only [List.countP_cons, slotsOf_cons, List.count_cons, beq_iff_eq]
    split <;> split <;> split <;> simp_all <;> omega

section Circle

variable {n r : Nat}

/-- Place `j` of the turn in round `r` among `n` slots: the slots `1, …, n - 1` turned on by
`r`. -/
def circleSlot (n r j : Nat) : Nat := (r + j) % (n - 1) + 1

theorem one_le_circleSlot (j : Nat) : 1 ≤ circleSlot n r j := Nat.le_add_left 1 _

theorem circleSlot_le (hn : 2 ≤ n) (j : Nat) : circleSlot n r j ≤ n - 1 := by
  have := Nat.mod_lt (r + j) (show 0 < n - 1 by omega)
  unfold circleSlot
  omega

theorem circleSlot_modEq (j : Nat) : circleSlot n r j ≡ r + j + 1 [MOD n - 1] :=
  (Nat.mod_modEq (r + j) (n - 1)).add_right 1

/-- Two slots of the turn that agree modulo its length are the same slot. -/
theorem eq_of_modEq_of_slots {m a b : Nat} (ha : 1 ≤ a) (ha' : a ≤ m) (hb : 1 ≤ b) (hb' : b ≤ m)
    (h : a ≡ b [MOD m]) : a = b := by
  have h' : a - 1 ≡ b - 1 [MOD m] :=
    Nat.ModEq.add_right_cancel' 1 (by rwa [Nat.sub_add_cancel ha, Nat.sub_add_cancel hb])
  have := h'.eq_of_lt_of_lt (by omega) (by omega)
  omega

theorem circleSlot_inj {j j' : Nat} (hj : j < n - 1) (hj' : j' < n - 1)
    (h : circleSlot n r j = circleSlot n r j') : j = j' := by
  have hm : r + j ≡ r + j' [MOD n - 1] := Nat.add_right_cancel h
  exact (Nat.ModEq.add_left_cancel' r hm).eq_of_lt_of_lt hj hj'

/-- Every slot away from the centre stands at some place of the turn. -/
theorem exists_circleSlot_eq (hr : r < n - 1) {a : Nat} (ha : 1 ≤ a) (ha' : a ≤ n - 1) :
    ∃ j < n - 1, circleSlot n r j = a := by
  by_cases hle : r ≤ a - 1
  · refine ⟨a - 1 - r, by omega, ?_⟩
    unfold circleSlot
    rw [show r + (a - 1 - r) = a - 1 by omega, Nat.mod_eq_of_lt (by omega)]
    omega
  · refine ⟨a - 1 + (n - 1) - r, by omega, ?_⟩
    unfold circleSlot
    rw [show r + (a - 1 + (n - 1) - r) = a - 1 + (n - 1) by omega, Nat.add_mod_right,
      Nat.mod_eq_of_lt (by omega)]
    omega

/-- A round of the circle method pairs slot 0 with the last place of the turn, and place `i`
with place `n - 3 - i`. -/
theorem circleRound_eq (hn : 2 ≤ n) (r : Nat) :
    circleRound n r = (0, circleSlot n r (n - 2)) ::
      (List.range (n / 2 - 1)).map fun i => (circleSlot n r i, circleSlot n r (n - 3 - i)) := by
  unfold circleRound circleSlot
  dsimp only
  rw [show r + n - 2 = r + (n - 2) by omega]
  congr 1
  refine List.map_congr_left fun i hi => ?_
  rw [List.mem_range] at hi
  rw [show r + n - 3 - i = r + (n - 3 - i) by omega]

theorem mem_circleRound (hn : 2 ≤ n) {x y : Nat} :
    (x, y) ∈ circleRound n r ↔ (x = 0 ∧ y = circleSlot n r (n - 2)) ∨
      ∃ i < n / 2 - 1, circleSlot n r i = x ∧ circleSlot n r (n - 3 - i) = y := by
  rw [circleRound_eq hn]
  simp [eq_comm]

theorem length_circleRound (hn : 2 ≤ n) (r : Nat) : (circleRound n r).length = n / 2 := by
  rw [circleRound_eq hn]
  simp
  omega

/-- The places of the turn a round takes, slot 0 apart: the last, then each place `i` below
the middle with its mirror image. -/
def circlePlaces (n : Nat) : List Nat :=
  (n - 2) :: (List.range (n / 2 - 1)).flatMap fun i => [i, n - 3 - i]

theorem slotsOf_circleRound (hn : 2 ≤ n) (r : Nat) :
    slotsOf (circleRound n r) = 0 :: (circlePlaces n).map (circleSlot n r) := by
  rw [circleRound_eq hn, slotsOf_cons, circlePlaces, List.map_cons, slotsOf, List.flatMap_map,
    List.map_flatMap]
  rfl

theorem circlePlaces_lt (hn : 2 ≤ n) {j : Nat} (hj : j ∈ circlePlaces n) : j < n - 1 := by
  simp only [circlePlaces, List.mem_cons, List.mem_flatMap, List.mem_range,
    List.not_mem_nil, or_false] at hj
  omega

theorem nodup_circlePlaces (heven : n % 2 = 0) : (circlePlaces n).Nodup := by
  simp only [circlePlaces, List.nodup_cons, List.mem_flatMap, List.mem_range, List.mem_cons,
    List.not_mem_nil, or_false, not_exists, not_and]
  refine ⟨fun i hi => by omega, List.nodup_flatMap.2 ⟨fun i hi => ?_, ?_⟩⟩
  · rw [List.mem_range] at hi
    simp only [List.nodup_cons, List.mem_singleton, List.not_mem_nil, not_false_eq_true,
      List.nodup_nil, and_true]
    omega
  · -- a place below the middle and its mirror image lie on either side of it
    refine List.pairwise_lt_range.imp_of_mem fun {i i'} hi hi' hlt => ?_
    rw [List.mem_range] at hi hi'
    simp [Function.onFun, List.Disjoint]
    omega

/-- **A round of the circle method seats every slot once.** -/
theorem nodup_slotsOf_circleRound (hn : 2 ≤ n) (heven : n % 2 = 0) (r : Nat) :
    (slotsOf (circleRound n r)).Nodup := by
  rw [slotsOf_circleRound hn, List.nodup_cons]
  refine ⟨fun h => ?_, (nodup_circlePlaces heven).map_on fun j hj j' hj' h =>
    circleSlot_inj (circlePlaces_lt hn hj) (circlePlaces_lt hn hj') h⟩
  obtain ⟨j, -, hj⟩ := List.mem_map.1 h
  exact absurd hj (Nat.pos_iff_ne_zero.1 (one_le_circleSlot j))

theorem lt_of_mem_slotsOf_circleRound (hn : 2 ≤ n) {a : Nat} (ha : a ∈ slotsOf (circleRound n r)) :
    a < n := by
  rw [slotsOf_circleRound hn, List.mem_cons, List.mem_map] at ha
  rcases ha with rfl | ⟨j, -, rfl⟩
  · omega
  · have := circleSlot_le (r := r) hn j
    omega

theorem lt_of_mem_circleRound (hn : 2 ≤ n) {p : Nat × Nat} (hp : p ∈ circleRound n r) :
    p.1 < n ∧ p.2 < n :=
  ⟨lt_of_mem_slotsOf_circleRound hn (mem_slotsOf.2 ⟨p, hp, .inl rfl⟩),
    lt_of_mem_slotsOf_circleRound hn (mem_slotsOf.2 ⟨p, hp, .inr rfl⟩)⟩

theorem mem_slotsOf_circleRound (hn : 2 ≤ n) (heven : n % 2 = 0) (r : Nat) {a : Nat}
    (ha : a < n) : a ∈ slotsOf (circleRound n r) := by
  have hnd := nodup_slotsOf_circleRound hn heven r
  -- `n` distinct slots below `n` are all of them
  have hsub : (slotsOf (circleRound n r)).toFinset ⊆ Finset.range n := fun x hx =>
    Finset.mem_range.2 (lt_of_mem_slotsOf_circleRound hn (List.mem_toFinset.1 hx))
  have hcard : (Finset.range n).card ≤ (slotsOf (circleRound n r)).toFinset.card := by
    rw [List.toFinset_card_of_nodup hnd, length_slotsOf, length_circleRound hn, Finset.card_range]
    omega
  have := Finset.eq_of_subset_of_card_le hsub hcard
  rw [← List.mem_toFinset, this, Finset.mem_range]
  exact ha

/-- The round in which slots `a` and `b` of `n` meet: slot 0 meets slot `b` in round
`b mod (n - 1)`, and two slots away from the centre meet where twice the round is their sum
modulo `n - 1`, that is in round `(a + b) · n / 2 mod (n - 1)`, `n / 2` being the inverse of
two. -/
def meetRound (n a b : Nat) : Nat :=
  if a = 0 then b % (n - 1) else if b = 0 then a % (n - 1) else (a + b) * (n / 2) % (n - 1)

theorem meetRound_comm (n a b : Nat) : meetRound n a b = meetRound n b a := by
  unfold meetRound
  by_cases ha : a = 0 <;> by_cases hb : b = 0 <;> simp [ha, hb, Nat.add_comm]

theorem meetRound_lt (hn : 2 ≤ n) (a b : Nat) : meetRound n a b < n - 1 := by
  unfold meetRound
  split
  · exact Nat.mod_lt _ (by omega)
  · split <;> exact Nat.mod_lt _ (by omega)

/-- Twice the meeting round of two slots away from the centre is their sum. -/
theorem two_mul_meetRound (hn : 2 ≤ n) (heven : n % 2 = 0) {a b : Nat} (ha : a ≠ 0) (hb : b ≠ 0) :
    2 * meetRound n a b ≡ a + b [MOD n - 1] := by
  rw [meetRound, if_neg ha, if_neg hb]
  calc 2 * ((a + b) * (n / 2) % (n - 1)) ≡ 2 * ((a + b) * (n / 2)) [MOD n - 1] :=
        (Nat.mod_modEq _ _).mul_left 2
    _ = (a + b) + (a + b) * (n - 1) := by
        rw [Nat.mul_left_comm, show 2 * (n / 2) = (n - 1) + 1 by omega, Nat.mul_add, Nat.mul_one,
          Nat.add_comm]
    _ ≡ a + b [MOD n - 1] := Nat.add_mul_mod_self_right (a + b) (a + b) (n - 1)

/-- Rounds below `n - 1` are told apart by their doubles, `n - 1` being odd. -/
theorem eq_of_two_mul_modEq (heven : n % 2 = 0) {r r' : Nat} (hr : r < n - 1) (hr' : r' < n - 1)
    (h : 2 * r ≡ 2 * r' [MOD n - 1]) : r = r' := by
  have hodd : (n - 1).gcd 2 = 1 := by
    rw [Nat.gcd_comm, Nat.gcd_rec, show (n - 1) % 2 = 1 by omega, Nat.gcd_one_left]
  exact (Nat.ModEq.cancel_left_of_coprime hodd h).eq_of_lt_of_lt hr hr'

/-- Slot 0 meets slot `b` in the round that `b` names modulo `n - 1`. -/
theorem meets_centre_iff (hn : 2 ≤ n) (hr : r < n - 1) {b : Nat} (hb : b ≠ 0) (hb' : b < n) :
    ((0, b) ∈ circleRound n r ∨ (b, 0) ∈ circleRound n r) ↔ r = meetRound n 0 b := by
  have hne : ∀ j, circleSlot n r j ≠ 0 := fun j => Nat.pos_iff_ne_zero.1 (one_le_circleSlot j)
  rw [mem_circleRound hn, mem_circleRound hn, meetRound, if_pos rfl]
  -- the last place of the turn holds the slot `r`, up to a turn
  have hlast : circleSlot n r (n - 2) ≡ r [MOD n - 1] := by
    have := circleSlot_modEq (n := n) (r := r) (n - 2)
    rw [show r + (n - 2) + 1 = r + (n - 1) by omega] at this
    exact this.trans Nat.add_modEq_right
  constructor
  · rintro ((⟨-, rfl⟩ | ⟨i, -, hi, -⟩) | (⟨rfl, -⟩ | ⟨i, -, -, hi⟩))
    · rw [Nat.ModEq.eq_1] at hlast
      rw [hlast, Nat.mod_eq_of_lt hr]
    · exact absurd hi (hne i)
    · exact absurd rfl hb
    · exact absurd hi (hne _)
  · intro h
    refine .inl (.inl ⟨rfl, (eq_of_modEq_of_slots (one_le_circleSlot _) (circleSlot_le hn _)
      (by omega) (by omega) (hlast.trans ?_)).symm⟩)
    rw [h]
    exact Nat.mod_modEq b (n - 1)

/-- Two slots away from the centre meet in the round whose double is their sum. -/
theorem meets_iff_two_mul (hn : 2 ≤ n) (heven : n % 2 = 0) (hr : r < n - 1) {a b : Nat}
    (ha : a ≠ 0) (ha' : a < n) (hb : b ≠ 0) (hb' : b < n) (hab : a ≠ b) :
    ((a, b) ∈ circleRound n r ∨ (b, a) ∈ circleRound n r) ↔ 2 * r ≡ a + b [MOD n - 1] := by
  -- the slots at places `i` and `n - 3 - i` add up to twice the round, up to a turn
  have hsum : ∀ i ≤ n - 3, circleSlot n r i + circleSlot n r (n - 3 - i) ≡ 2 * r [MOD n - 1] :=
    fun i hi => by
      calc circleSlot n r i + circleSlot n r (n - 3 - i)
          ≡ (r + i + 1) + (r + (n - 3 - i) + 1) [MOD n - 1] :=
            (circleSlot_modEq i).add (circleSlot_modEq _)
        _ = 2 * r + (n - 1) := by omega
        _ ≡ 2 * r [MOD n - 1] := Nat.add_modEq_right
  rw [mem_circleRound hn, mem_circleRound hn]
  constructor
  · rintro ((⟨rfl, -⟩ | ⟨i, hi, rfl, rfl⟩) | (⟨rfl, -⟩ | ⟨i, hi, rfl, rfl⟩))
    · exact absurd rfl ha
    · exact (hsum i (by omega)).symm
    · exact absurd rfl hb
    · rw [Nat.add_comm]
      exact (hsum i (by omega)).symm
  · intro h
    obtain ⟨j, hj, rfl⟩ := exists_circleSlot_eq hr (Nat.one_le_iff_ne_zero.2 ha) (by omega)
    -- the last place of the turn meets slot 0, so `a` stands at a place of a pair
    have hj' : j ≤ n - 3 := by
      by_contra hlast
      have hja : circleSlot n r j ≡ r [MOD n - 1] := by
        have := circleSlot_modEq (n := n) (r := r) j
        rw [show r + j + 1 = r + (n - 1) by omega] at this
        exact this.trans Nat.add_modEq_right
      have : circleSlot n r j + circleSlot n r j ≡ circleSlot n r j + b [MOD n - 1] :=
        calc circleSlot n r j + circleSlot n r j ≡ r + r [MOD n - 1] := hja.add hja
          _ = 2 * r := by omega
          _ ≡ circleSlot n r j + b [MOD n - 1] := h
      exact hab (eq_of_modEq_of_slots (one_le_circleSlot _) (circleSlot_le hn _) (by omega)
        (by omega) (Nat.ModEq.add_left_cancel' _ this))
    -- its partner at the mirror place is `b`
    have hb'' : circleSlot n r (n - 3 - j) = b := by
      refine eq_of_modEq_of_slots (one_le_circleSlot _) (circleSlot_le hn _) (by omega) (by omega)
        (Nat.ModEq.add_left_cancel' (circleSlot n r j) ((hsum j hj').trans h))
    by_cases hlow : j < n / 2 - 1
    · exact .inl (.inr ⟨j, hlow, rfl, hb''⟩)
    · refine .inr (.inr ⟨n - 3 - j, by omega, hb'', ?_⟩)
      rw [show n - 3 - (n - 3 - j) = j by omega]

/-- **Two slots meet in one round.** Slots `a ≠ b` of an even count `n` are paired in round
`r < n - 1` exactly when `r` is their meeting round. -/
theorem meets_iff_eq_meetRound (hn : 2 ≤ n) (heven : n % 2 = 0) (hr : r < n - 1) {a b : Nat}
    (ha : a < n) (hb : b < n) (hab : a ≠ b) :
    ((a, b) ∈ circleRound n r ∨ (b, a) ∈ circleRound n r) ↔ r = meetRound n a b := by
  by_cases ha0 : a = 0
  · subst ha0
    exact meets_centre_iff hn hr (Ne.symm hab) hb
  by_cases hb0 : b = 0
  · subst hb0
    rw [or_comm, meetRound_comm]
    exact meets_centre_iff hn hr ha0 ha
  rw [meets_iff_two_mul hn heven hr ha0 ha hb0 hb hab]
  constructor
  · intro h
    exact eq_of_two_mul_modEq heven hr (meetRound_lt hn a b)
      (h.trans (two_mul_meetRound hn heven ha0 hb0).symm)
  · rintro rfl
    exact two_mul_meetRound hn heven ha0 hb0

/-- The pairs of `a` and `b`, in either order. -/
def IsPair {α : Type} (a b : α) (p : α × α) : Prop := p = (a, b) ∨ p = (b, a)

instance {α : Type} [DecidableEq α] (a b : α) : DecidablePred (IsPair a b) :=
  fun _ => instDecidableOr

/-- A round of the circle method holds the pair of `a` and `b` once in their meeting round and
never in another. -/
theorem countP_circleRound (hn : 2 ≤ n) (heven : n % 2 = 0) (hr : r < n - 1) {a b : Nat}
    (ha : a < n) (hb : b < n) (hab : a ≠ b) :
    (circleRound n r).countP (IsPair a b ·) = if r = meetRound n a b then 1 else 0 := by
  have hle : (circleRound n r).countP (IsPair a b ·) ≤ 1 :=
    (countP_le_count_slotsOf _ fun p _ hp => by
      rcases of_decide_eq_true hp with rfl | rfl
      · exact .inl rfl
      · exact .inr rfl).trans
      (List.nodup_iff_count_le_one.1 (nodup_slotsOf_circleRound hn heven r) a)
  have hmeets := meets_iff_eq_meetRound hn heven hr ha hb hab
  by_cases h : r = meetRound n a b
  · rw [if_pos h]
    have : 0 < (circleRound n r).countP (IsPair a b ·) := List.countP_pos_iff.2 (by
      rcases hmeets.2 h with h | h
      · exact ⟨_, h, decide_eq_true (.inl rfl)⟩
      · exact ⟨_, h, decide_eq_true (.inr rfl)⟩)
    omega
  · rw [if_neg h]
    refine List.countP_eq_zero.2 fun p hp hpair => h (hmeets.1 ?_)
    rcases of_decide_eq_true hpair with rfl | rfl
    · exact .inl hp
    · exact .inr hp

end Circle

section Schedule

/-- The even count a round robin among `n` teams is played as: `n`, or `n + 1` with a slot
added for the team that rests. -/
def evenCount (n : Nat) : Nat := if n % 2 = 0 then n else n + 1

/-- The pairs of a round among the slots below `n`. -/
def Inside (n : Nat) (p : Nat × Nat) : Prop := p.1 < n ∧ p.2 < n

instance (n : Nat) : DecidablePred (Inside n) := fun _ => instDecidableAnd

variable {n : Nat}

theorem evenCount_even (n : Nat) : evenCount n % 2 = 0 := by
  unfold evenCount
  split <;> omega

theorem two_le_evenCount (hn : 2 ≤ n) : 2 ≤ evenCount n := by
  unfold evenCount
  split <;> omega

/-- The schedule of a round robin among `n` teams: the rounds of the circle method for the even
count, without the pairs of the added slot. -/
def schedule (n : Nat) : List (List (Nat × Nat)) :=
  (List.range (evenCount n - 1)).map fun r => (circleRound (evenCount n) r).filter (Inside n ·)

theorem roundRobin_eq (hn : 2 ≤ n) : roundRobin n = .ok (schedule n) := by
  rw [roundRobin, if_neg (by omega), Int.toNat_natCast]
  rfl

theorem length_schedule (n : Nat) : (schedule n).length = evenCount n - 1 := by
  rw [schedule, List.length_map, List.length_range]

/-- Numbers below `k` hold one given number below `k` once. -/
theorem sum_map_range_ite (k m : Nat) :
    ((List.range k).map fun r => if r = m then 1 else 0).sum = if m < k then 1 else 0 := by
  induction k with
  | zero => simp
  | succ k ih =>
    rw [List.range_succ, List.map_append, List.sum_append, ih]
    simp only [List.map_cons, List.map_nil, List.sum_cons, List.sum_nil, Nat.add_zero]
    split_ifs <;> omega

/-- A scheduled round seats no slot twice. -/
theorem nodup_slotsOf_filter (hn : 2 ≤ n) (r : Nat) :
    (slotsOf ((circleRound (evenCount n) r).filter (Inside n ·))).Nodup :=
  (nodup_slotsOf_circleRound (two_le_evenCount hn) (evenCount_even n) r).sublist
    (List.filter_sublist.flatMap _)

/-- A scheduled round holds the pair of two slots below `n` as its circle round does. -/
theorem countP_filter_inside {a b : Nat} (ha : a < n) (hb : b < n) (l : List (Nat × Nat)) :
    (l.filter (Inside n ·)).countP (IsPair a b ·) = l.countP (IsPair a b ·) := by
  rw [List.countP_filter]
  refine List.countP_congr fun p _ => ?_
  simp only [Bool.and_eq_true, decide_eq_true_eq, and_iff_left_iff_imp]
  rintro (rfl | rfl)
  · exact ⟨ha, hb⟩
  · exact ⟨hb, ha⟩

/-- With an odd count, the slot left out of a round is the one that meets the added slot. -/
theorem not_mem_slotsOf_filter_iff (hn : 2 ≤ n) (hodd : n % 2 = 1) {r a : Nat} (ha : a < n) :
    a ∉ slotsOf ((circleRound (evenCount n) r).filter (Inside n ·)) ↔
      ((a, n) ∈ circleRound (evenCount n) r ∨ (n, a) ∈ circleRound (evenCount n) r) := by
  have hN : evenCount n = n + 1 := by rw [evenCount, if_neg (by omega)]
  have hN2 := two_le_evenCount hn
  have hnd := nodup_slotsOf_circleRound hN2 (evenCount_even n) r
  -- every slot of a round lies below `n + 1`
  have hlt : ∀ p ∈ circleRound (evenCount n) r, p.1 < n + 1 ∧ p.2 < n + 1 := fun p hp =>
    hN ▸ lt_of_mem_circleRound hN2 hp
  rw [mem_slotsOf]
  constructor
  · intro hout
    obtain ⟨p, hp, hpa⟩ := mem_slotsOf.1
      (mem_slotsOf_circleRound hN2 (evenCount_even n) r (show a < evenCount n by omega))
    -- the pair of `a` was left out, so its other slot is the added one
    have hnin : ¬Inside n p := fun hin =>
      hout ⟨p, List.mem_filter.2 ⟨hp, decide_eq_true hin⟩, hpa⟩
    have hne : p.1 ≠ p.2 := by
      have := hnd
      rw [slotsOf, List.nodup_flatMap] at this
      have := this.1 p hp
      simp only [List.nodup_cons, List.mem_singleton, List.not_mem_nil, not_false_eq_true,
        List.nodup_nil, and_true] at this
      exact this
    have := hlt p hp
    obtain ⟨p1, p2⟩ := p
    simp only [Inside, not_and_or, Nat.not_lt] at hnin hpa hne this
    rcases hpa with rfl | rfl
    · exact .inl (by rw [show p2 = n by omega] at hp; exact hp)
    · exact .inr (by rw [show p1 = n by omega] at hp; exact hp)
  · rintro hpair ⟨p, hp, hpa⟩
    obtain ⟨hp, hin⟩ := List.mem_filter.1 hp
    have hin := of_decide_eq_true hin
    rcases hpair with hq | hq
    · have := eq_of_mem_slotsOf hnd hp hq hpa (.inl rfl)
      subst this
      exact absurd hin.2 (Nat.lt_irrefl n)
    · have := eq_of_mem_slotsOf hnd hp hq hpa (.inr rfl)
      subst this
      exact absurd hin.1 (Nat.lt_irrefl n)

theorem length_filter_inside (hn : 2 ≤ n) (r : Nat) :
    ((circleRound (evenCount n) r).filter (Inside n ·)).length = n / 2 := by
  have hN2 := two_le_evenCount hn
  have hlt := fun p (hp : p ∈ circleRound (evenCount n) r) => lt_of_mem_circleRound hN2 hp
  by_cases heven : n % 2 = 0
  · -- an even count adds no slot, and nothing is left out
    have hN : evenCount n = n := by rw [evenCount, if_pos heven]
    rw [List.filter_eq_self.2 fun p hp => decide_eq_true (hN ▸ hlt p hp), length_circleRound hN2,
      hN]
  · -- an odd count leaves out the one pair of the added slot
    have hN : evenCount n = n + 1 := by rw [evenCount, if_neg heven]
    have hnd := nodup_slotsOf_circleRound hN2 (evenCount_even n) r
    have hle : (circleRound (evenCount n) r).countP (fun p => !decide (Inside n p)) ≤ 1 :=
      (countP_le_count_slotsOf _ fun p hp hout => by
        have hout : ¬Inside n p := by simpa using hout
        have := hN ▸ hlt p hp
        simp only [Inside, not_and_or, Nat.not_lt] at hout
        omega).trans (List.nodup_iff_count_le_one.1 hnd n)
    have hpos : 0 < (circleRound (evenCount n) r).countP (fun p => !decide (Inside n p)) := by
      obtain ⟨p, hp, hpn⟩ := mem_slotsOf.1
        (mem_slotsOf_circleRound hN2 (evenCount_even n) r (show n < evenCount n by omega))
      have hnot : ¬Inside n p := by
        unfold Inside
        omega
      exact List.countP_pos_iff.2 ⟨p, hp, by simpa using hnot⟩
    have hsplit := List.length_eq_countP_add_countP (fun p => decide (Inside n p))
      (l := circleRound (evenCount n) r)
    have hhalf : evenCount n / 2 = n / 2 + 1 := by
      rw [hN]
      omega
    rw [length_circleRound hN2, hhalf] at hsplit
    rw [← List.countP_eq_length_filter]
    simp only [decide_eq_true_eq, decide_not] at hsplit
    omega

/-- Numbers below `k` of which exactly `m < k` passes a test: the test passes once. -/
theorem countP_range_eq_one {k m : Nat} (hm : m < k) {P : Nat → Bool}
    (hP : ∀ r < k, P r = true ↔ r = m) : (List.range k).countP P = 1 := by
  have : (List.range k).countP P = (List.range k).count m := by
    rw [List.count_eq_countP]
    refine List.countP_congr fun r hr => ?_
    rw [hP r (List.mem_range.1 hr), beq_iff_eq]
  rw [this, List.count_range, if_pos hm]

/-- A round of the schedule has `⌊n / 2⌋` pairs of slots below `n`, no slot twice. -/
theorem mem_schedule (hn : 2 ≤ n) {round : List (Nat × Nat)} (hround : round ∈ schedule n) :
    round.length = n / 2 ∧ (∀ p ∈ round, Inside n p) ∧ (slotsOf round).Nodup := by
  obtain ⟨r, -, rfl⟩ := List.mem_map.1 hround
  exact ⟨length_filter_inside hn r, fun p hp => of_decide_eq_true (List.mem_filter.1 hp).2,
    nodup_slotsOf_filter hn r⟩

/-- Two slots below `n` meet in exactly one pair of the schedule. -/
theorem countP_pair_schedule (hn : 2 ≤ n) {a b : Nat} (ha : a < n) (hb : b < n) (hab : a ≠ b) :
    (schedule n).flatten.countP (IsPair a b ·) = 1 := by
  have hN2 := two_le_evenCount hn
  have hN : n ≤ evenCount n := by
    unfold evenCount
    split <;> omega
  -- the pair of `a` and `b` is counted round by round, and only their meeting round has it
  rw [schedule, List.countP_flatten, List.map_map]
  have hround : ∀ r ∈ List.range (evenCount n - 1),
      (List.countP (IsPair a b ·) ∘ fun r => (circleRound (evenCount n) r).filter (Inside n ·)) r =
        if r = meetRound (evenCount n) a b then 1 else 0 := fun r hr => by
    rw [Function.comp_apply, countP_filter_inside ha hb,
      countP_circleRound hN2 (evenCount_even n) (List.mem_range.1 hr) (by omega) (by omega) hab]
  rw [List.map_congr_left hround, sum_map_range_ite, if_pos (meetRound_lt hN2 a b)]

/-- With an odd count, every slot rests in exactly one round of the schedule: the round where it
meets the added slot. -/
theorem countP_rest_schedule (hn : 2 ≤ n) (hodd : n % 2 = 1) {a : Nat} (ha : a < n) :
    (schedule n).countP (fun round => a ∉ slotsOf round) = 1 := by
  have hN2 := two_le_evenCount hn
  have hNn : evenCount n = n + 1 := by rw [evenCount, if_neg (by omega)]
  rw [schedule, List.countP_map]
  refine countP_range_eq_one (meetRound_lt hN2 a n) fun r hr => ?_
  rw [Function.comp_apply, decide_eq_true_iff, not_mem_slotsOf_filter_iff hn hodd ha,
    meets_iff_eq_meetRound hN2 (evenCount_even n) hr (by omega) (by omega) (by omega)]

/-- **The circle method is a round robin.** For `n ≥ 2` teams the schedule has `n - 1` rounds,
`n` for an odd count, each of `⌊n / 2⌋` pairs of distinct slots below `n`; every two slots meet
in exactly one pair of the whole schedule, and with an odd count every slot rests in exactly
one round. -/
theorem roundRobin_is_one_factorisation {n : Nat} (hn : 2 ≤ n) :
    ∃ s, roundRobin n = .ok s ∧
      s.length = (if n % 2 = 0 then n - 1 else n) ∧
      (∀ round ∈ s, round.length = n / 2 ∧ (∀ p ∈ round, p.1 < n ∧ p.2 < n) ∧
        (slotsOf round).Nodup) ∧
      (∀ a < n, ∀ b < n, a ≠ b → s.flatten.countP (IsPair a b ·) = 1) ∧
      (n % 2 = 1 → ∀ a < n, s.countP (fun round => a ∉ slotsOf round) = 1) := by
  refine ⟨_, roundRobin_eq hn, ?_, fun round hround => mem_schedule hn hround,
    fun a ha b hb hab => countP_pair_schedule hn ha hb hab,
    fun hodd a ha => countP_rest_schedule hn hodd ha⟩
  rw [length_schedule, evenCount]
  split <;> omega

/-- Five teams, an odd count: five rounds of two pairs, one team resting in each. -/
theorem one_factorisation_five_teams :
    2 ≤ 5 ∧ ∃ s, roundRobin ((5 : Nat) : Int) = .ok s ∧
      s.length = (if 5 % 2 = 0 then 5 - 1 else 5) ∧
      (∀ round ∈ s, round.length = 5 / 2 ∧ (∀ p ∈ round, p.1 < 5 ∧ p.2 < 5) ∧
        (slotsOf round).Nodup) ∧
      (∀ a < 5, ∀ b < 5, a ≠ b → s.flatten.countP (IsPair a b ·) = 1) ∧
      (5 % 2 = 1 → ∀ a < 5, s.countP (fun round => a ∉ slotsOf round) = 1) :=
  ⟨by decide, roundRobin_is_one_factorisation (by decide)⟩

example : roundRobin 4 = .ok [[(0, 3), (1, 2)], [(0, 1), (2, 3)], [(0, 2), (3, 1)]] := rfl

end Schedule

end TournamentDraw.Shape
