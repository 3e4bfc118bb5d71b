import TournamentDraw.Proofs.LinkGraph
import TournamentDraw.Proofs.Played
import TournamentDraw.Proofs.Rounding

/-!
# The lanes of a generated knockout draw

What the flow of teams through a generated draw needs of its shape. Its first `R` rounds are
the winners lane (`Bracket.WinnersLane`): a match there sends its winner on to the next round
of the lane, up to the final of the lane, alone in its last round, and no other link leads
into the lane. Double elimination ends in a grand final (`Bracket.GrandFinal`), the one match
that sends no winner on, which the final of the winners lane sends its winner to; exactly the
matches of the winners lane send their losers on. Both hold of the generated draws and of every
draw with the same places, links and lanes.

The number of rounds is the binary64 logarithm of the count, at most one more than the integer
one (`Shape.ceilLog2_le_log2_succ`), so the first round is never wider than the count.
-/

namespace TournamentDraw

namespace Bracket

/-- The winners lane of a knockout draw of `R ≥ 1` rounds: its first `R` rounds, the rounds of
its lane. A match there sends its winner on to the next round of the lane, up to the final of
the lane, alone in its last round; no other link leads into the lane. -/
structure WinnersLane (R : Nat) (b : Bracket) : Prop where
  one_le : 1 ≤ R
  final_mem : (⟨R - 1, 0⟩ : Pos) ∈ b.positions
  final_only : ∀ p ∈ b.positions, p.round + 1 = R → p = ⟨R - 1, 0⟩
  into : ∀ p ∈ b.positions, ∀ k,
    (∃ q, b.dest p k = some q ∧ q.round < R) ↔ k = .next ∧ p.round + 1 < R
  lane : ∀ p ∈ b.positions, (b.roundOf p.round).lane = some .winners ↔ p.round < R

/-- The grand final of double elimination of `R` winners rounds: the one match that sends no
winner on, where the final of the winners lane sends its winner; and exactly the matches of
the winners lane send their losers on. -/
structure GrandFinal (R : Nat) (b : Bracket) : Prop where
  mem : (⟨3 * R - 2, 0⟩ : Pos) ∈ b.positions
  next_none : ∀ p ∈ b.positions, b.dest p .next = none ↔ p = ⟨3 * R - 2, 0⟩
  loser_none : ∀ p ∈ b.positions, b.dest p .loserNext = none ↔ R ≤ p.round
  after : b.dest ⟨R - 1, 0⟩ .next = some ⟨3 * R - 2, 0⟩

variable {b c : Bracket} {R : Nat}

theorem lane_eq_of_frame (h : b.frame = c.frame) (j : Nat) :
    (b.roundOf j).lane = (c.roundOf j).lane := by
  have hr := congrArg (fun x : Bracket => (x.rounds[j]?).map Round.lane) h
  simp only [frame, List.getElem?_map, Option.map_map, Function.comp_def] at hr
  simp only [roundOf]
  cases hb : b.rounds[j]? <;> cases hc : c.rounds[j]? <;> simp_all

/-- The winners lane is read off the places, links and lanes of a draw. -/
theorem WinnersLane.congr (h : b.WinnersLane R) (hpos : c.positions = b.positions)
    (hdest : ∀ p k, c.dest p k = b.dest p k) (hlane : ∀ j, (c.roundOf j).lane = (b.roundOf j).lane) :
    c.WinnersLane R where
  one_le := h.one_le
  final_mem := hpos ▸ h.final_mem
  final_only p hp := h.final_only p (hpos ▸ hp)
  into p hp k := by
    simp only [hdest]
    exact h.into p (hpos ▸ hp) k
  lane p hp := by
    rw [hlane]
    exact h.lane p (hpos ▸ hp)

/-- The grand final is read off the places and links of a draw. -/
theorem GrandFinal.congr (h : b.GrandFinal R) (hpos : c.positions = b.positions)
    (hdest : ∀ p k, c.dest p k = b.dest p k) : c.GrandFinal R where
  mem := hpos ▸ h.mem
  next_none p hp := by
    rw [hdest]
    exact h.next_none p (hpos ▸ hp)
  loser_none p hp := by
    rw [hdest]
    exact h.loser_none p (hpos ▸ hp)
  after := by rw [hdest]; exact h.after

end Bracket

namespace Generate

section Single

variable {k byes : Nat} {third : Bool} {tp seed : Value}

theorem winnersLane_singleDraw (hk : 1 ≤ k) (hthird : third = true → 2 ≤ k) :
    (singleDraw k byes third tp seed).WinnersLane k where
  one_le := hk
  final_mem := (mem_singleDraw hthird).2 (.inl ⟨by dsimp only; omega, by
    dsimp only
    rw [show k - 1 + 1 = k by omega, Nat.div_self (Nat.two_pow_pos k)]
    omega⟩)
  final_only p hp h1 := by
    obtain ⟨r, i⟩ := p
    dsimp only at h1
    -- the last round of the lane holds one match
    rcases (mem_singleDraw hthird).1 hp with ⟨-, hi⟩ | ⟨-, hr, -⟩
    · dsimp only at hi
      rw [h1, Nat.div_self (Nat.two_pow_pos k)] at hi
      rw [show r = k - 1 by omega, show i = 0 by omega]
    · dsimp only at hr
      omega
  into p hp l := by
    rw [(laid_singleDraw hthird).dest_eq hp]
    cases l <;> simp only [singleLink] <;> split <;> simp; omega
  lane p hp := by
    rcases (mem_singleDraw hthird).1 hp with ⟨hr, -⟩ | ⟨ht, hr, -⟩
    · simp [(roundOf_singleDraw hthird hr).1, hr]
    · rw [hr, (roundOf_singleDraw_third hthird ht).1]
      simp

end Single

section Double

variable {k byes : Nat} {seed : Value}

theorem winnersLane_doubleDraw (hk : 1 ≤ k) : (doubleDraw k byes seed).WinnersLane k where
  one_le := hk
  final_mem := (mem_doubleDraw hk).2 (doubleCount_pos hk (by dsimp only; omega))
  final_only p hp h1 := by
    have hi := index_eq_zero_of_last h1 ((mem_doubleDraw hk).1 hp)
    obtain ⟨r, i⟩ := p
    dsimp only at h1 hi
    rw [show r = k - 1 by omega, hi]
  into p hp l := by
    rw [(laid_doubleDraw hk).dest_eq hp]
    cases l <;> simp only [doubleLink] <;> split_ifs <;> simp <;> omega
  lane p hp := by
    have hr := round_le_of_lt_doubleCount hk ((mem_doubleDraw hk).1 hp)
    rw [(roundOf_doubleDraw hk hr).1, doubleLane]
    split_ifs <;> simp_all

theorem grandFinal_doubleDraw (hk : 1 ≤ k) : (doubleDraw k byes seed).GrandFinal k where
  mem := (mem_doubleDraw hk).2 (doubleCount_pos hk le_rfl)
  next_none p hp := by
    have hi := (mem_doubleDraw hk).1 hp
    have hr := round_le_of_lt_doubleCount hk hi
    rw [(laid_doubleDraw hk).dest_eq hp]
    obtain ⟨r, i⟩ := p
    dsimp only at hi hr
    constructor
    · -- only the grand final sends no winner on, and it is alone in its round
      intro h
      have h3 : r = 3 * k - 2 := by
        simp only [doubleLink] at h
        split_ifs at h
        omega
      subst h3
      rw [doubleCount, if_neg (by omega), if_neg (by omega), if_pos rfl] at hi
      rw [show i = 0 by omega]
    · intro h
      cases h
      simp only [doubleLink]
      split_ifs <;> first | rfl | omega
  loser_none p hp := by
    rw [(laid_doubleDraw hk).dest_eq hp]
    simp only [doubleLink]
    split_ifs <;> simp <;> omega
  after := by
    rw [(laid_doubleDraw hk).dest_eq ((mem_doubleDraw hk).2 (doubleCount_pos hk (by dsimp only; omega)))]
    simp only [doubleLink]
    split_ifs <;> first | rfl | omega

end Double

end Generate

namespace Shape

/-- A count of two or more is held in binary64 with a significand of at most 53 bits. -/
theorem ofInt_mant_le {n : Nat} (h : 2 ≤ n) : (Binary64.ofInt n).mant.toNat ≤ 2 ^ 53 := by
  have hlt : n < 2 ^ (Nat.log2 n + 1) := Nat.lt_log2_self
  rw [(ofInt_exp_mant_eq h).2]
  split
  · -- the count is below `2 ^ 53` units of the last place, so it rounds to at most that
    have hden : 0 < 2 ^ (Nat.log2 n - 52) := Nat.two_pow_pos _
    have hunit : n < 2 ^ 53 * 2 ^ (Nat.log2 n - 52) := by
      rwa [← Nat.pow_add, show 53 + (Nat.log2 n - 52) = Nat.log2 n + 1 by omega]
    have hr := Binary64.roundHalfEven_le n (2 ^ (Nat.log2 n - 52)) hden
    by_contra hgt
    have : 2 * (2 ^ 53 + 1) * 2 ^ (Nat.log2 n - 52) ≤
        2 * Binary64.roundHalfEven n (2 ^ (Nat.log2 n - 52)) * 2 ^ (Nat.log2 n - 52) :=
      Nat.mul_le_mul_right _ (Nat.mul_le_mul_left _ (by omega))
    nlinarith
  · -- a count of fewer than 53 bits is held exactly
    have hexact : Binary64.roundHalfEven (n * 2 ^ (52 - Nat.log2 n)) 1 =
        n * 2 ^ (52 - Nat.log2 n) := by
      simp [Binary64.roundHalfEven, Nat.mod_one]
    rw [hexact]
    calc n * 2 ^ (52 - Nat.log2 n) ≤ 2 ^ (Nat.log2 n + 1) * 2 ^ (52 - Nat.log2 n) :=
          Nat.mul_le_mul_right _ hlt.le
      _ = 2 ^ 53 := by rw [← Nat.pow_add, show Nat.log2 n + 1 + (52 - Nat.log2 n) = 53 by omega]

/-- **The rounds of a draw are at most one more than the integer logarithm of its count**, as
binary64 rounds a count to a nearby significand, never past the next power of two. -/
theorem ceilLog2_le_log2_succ {n : Nat} (h : 2 ≤ n) : ceilLog2 n ≤ Nat.log2 n + 1 := by
  unfold ceilLog2
  split
  · unfold ceilLog2Split
    dsimp only
    split
    · -- a fraction rounded up to one: the next power of two, whose logarithm is exact
      have hpos : 0 < ln2Num := by unfold ln2Num; omega
      dsimp only
      simp only [Nat.sub_self, Nat.mul_zero, Nat.zero_mul]
      rw [if_pos (Nat.mul_pos hpos (Nat.succ_pos _))]
      omega
    · split <;> omega
  · unfold ceilLog2Finite
    obtain ⟨he, hm⟩ := ofInt_exp_mant h
    have hm' := ofInt_mant_le h
    have hlog : Nat.log2 (Binary64.ofInt n).mant.toNat ≤ 53 := by
      have := (Nat.log2_lt (by omega)).2 (show (Binary64.ofInt n).mant.toNat < 2 ^ 54 by omega)
      omega
    have hlow : 52 ≤ Nat.log2 (Binary64.ofInt n).mant.toNat := (Nat.le_log2 (by omega)).2 hm
    dsimp only
    rw [he]
    split
    · omega
    · -- a significand that is no power of two is below `2 ^ 53`, of 53 bits
      next hpow =>
      have h52 : Nat.log2 (Binary64.ofInt n).mant.toNat = 52 := by
        by_contra hne
        have h53 : Nat.log2 (Binary64.ofInt n).mant.toNat = 53 := by omega
        exact hpow (by rw [h53]; exact le_antisymm hm' ((Nat.le_log2 (by omega)).1 h53.ge))
      split <;> omega

/-- The places of a draw number at most twice its count. -/
theorem pow_ceilLog2_le {n : Nat} (h : 2 ≤ n) : 2 ^ ceilLog2 n ≤ 2 * n :=
  calc 2 ^ ceilLog2 n ≤ 2 ^ (Nat.log2 n + 1) := Nat.pow_le_pow_right (by omega) (ceilLog2_le_log2_succ h)
    _ = 2 * 2 ^ Nat.log2 n := by rw [pow_succ, Nat.mul_comm]
    _ ≤ 2 * n := Nat.mul_le_mul_left _ (Nat.log2_self_le (by omega))

end Shape

namespace Pos

/-- The final of the winners lane of a knockout draw for `n` teams. -/
def winnersFinal (n : Nat) : Pos := ⟨Shape.ceilLog2 n - 1, 0⟩

/-- The grand final of double elimination for `n` teams. -/
def grandFinal (n : Nat) : Pos := ⟨3 * Shape.ceilLog2 n - 2, 0⟩

/-- The match for third place of single elimination for `n` teams. -/
def thirdPlace (n : Nat) : Pos := ⟨Shape.ceilLog2 n, 0⟩

end Pos

namespace Bracket

/-- A knockout draw of `R` winners rounds in the format `fmt`, as playing it out reads it: two
links into every match past the first round, a winners lane, a grand final in double
elimination, and in single elimination a match for third place when one is asked for and the
draw has semi-finals. -/
structure Knockout (fmt : Format) (third : Bool) (R : Nat) (b : Bracket) : Prop where
  feeders : ∀ q ∈ b.positions, 0 < q.round → (b.feeders q).card = 2
  lane : b.WinnersLane R
  grand : fmt = .doubleElimination → b.GrandFinal R
  third_mem : fmt = .singleElimination → third = true → 2 ≤ R → (⟨R, 0⟩ : Pos) ∈ b.positions

variable {b c : Bracket} {fmt : Format} {third : Bool} {R : Nat}

theorem feeders_congr (hpos : c.positions = b.positions) (hdest : ∀ p k, c.dest p k = b.dest p k)
    (q : Pos) : c.feeders q = b.feeders q := by
  simp only [feeders, hpos, hdest]

/-- The shape is read off the places, links and lanes of a draw. -/
theorem Knockout.congr (h : b.Knockout fmt third R) (hpos : c.positions = b.positions)
    (hdest : ∀ p k, c.dest p k = b.dest p k)
    (hlane : ∀ j, (c.roundOf j).lane = (b.roundOf j).lane) : c.Knockout fmt third R where
  feeders q hq hr := by
    rw [feeders_congr hpos hdest]
    exact h.feeders q (hpos ▸ hq) hr
  lane := h.lane.congr hpos hdest hlane
  grand hf := (h.grand hf).congr hpos hdest
  third_mem hf ht hR := hpos ▸ h.third_mem hf ht hR

end Bracket

namespace Generate

/-- **The shape of a generated knockout draw.** A single or double elimination generated for
`n ≥ 2` teams has `ceilLog2 n` winners rounds, and two links lead into every match past its
first round. -/
theorem knockout_build {fmt : Format} {plan : Plan} {n : Nat} {b : Bracket}
    (hfmt : fmt = .singleElimination ∨ fmt = .doubleElimination) (hn : 2 ≤ n)
    (hteams : plan.teams = n) (hb : build fmt plan = .ok b) :
    b.Knockout fmt plan.thirdPlace.truthy (Shape.ceilLog2 n) := by
  have h2 : (2 : Int) ≤ (n : Int) := by exact_mod_cast hn
  have hk := Shape.one_le_ceilLog2 hn
  have hfeed : ∀ {b : Bracket}, b.LinkGraph (Shape.ceilLog2 n) n →
      ∀ q ∈ b.positions, 0 < q.round → (b.feeders q).card = 2 :=
    fun hG q hq hr => by rw [hG.feeders q hq, if_neg (by omega)]
  rcases hfmt with rfl | rfl
  · have hb' : singleElimination (.int plan.teams) plan.thirdPlace (Value.ofOptStr plan.seed) =
        .ok b := hb
    rw [hteams, singleElimination_int h2, Int.toNat_natCast] at hb'
    cases hb'
    have hthird : (plan.thirdPlace.truthy && decide (2 ≤ Shape.ceilLog2 n)) = true →
        2 ≤ Shape.ceilLog2 n := fun h => by simp at h; exact h.2
    exact ⟨hfeed (linkGraph_singleDraw n hk hthird), winnersLane_singleDraw hk hthird, nofun,
      fun _ ht h2k => (mem_singleDraw hthird).2 (.inr ⟨by simp [ht, h2k], by dsimp only,
        by dsimp only⟩)⟩
  · have hb' : doubleElimination (.int plan.teams) (Value.ofOptStr plan.seed) = .ok b := hb
    rw [hteams, doubleElimination_int h2, Int.toNat_natCast] at hb'
    cases hb'
    exact ⟨hfeed (linkGraph_doubleDraw n hk), winnersLane_doubleDraw hk,
      fun _ => grandFinal_doubleDraw hk, nofun⟩

end Generate

end TournamentDraw
