import TournamentDraw.Proofs.Layout

/-!
# Generated single elimination

For a count of `n ≥ 2` teams, single elimination has `k` rounds, `k ≥ 1`, over `2 ^ k` places
(`singleElimination_int`); round `j` holds `2 ^ k / 2 ^ (j + 1)` matches, numbered on from the
rounds before, and the first `2 ^ k - n` matches of the first round are byes. The winner of
match `i` plays on in match `i / 2` of the next round, and with a third-place match the losers
of the two semi-finals meet there.

Read as a table (`singleName`, `singleLink`), the draw is laid out, and it is wired: the side a
team arrives at is the parity of the match it comes from, so `singleSource` gives back the link
that arrives at each side. Nothing in it is played (`fresh_singleElimination`).
-/

namespace TournamentDraw

namespace Generate


/-- How single elimination builds round `r` of `k`: the first round marks its byes. -/
def singleBuild (byes k : Nat) (r : Nat) (games : List Match) : Round :=
  { number := .int r, name := .str (Shape.roundName r k),
    games := if r = 1 then markByes byes games else games, lane := some .winners }

/-- The third-place match of a single elimination draw of `k` rounds. -/
def thirdMatch (k : Nat) : Match :=
  { id := .str s!"match_{firstNumber (2 ^ k) k}", round := .int (k + 1), number := .int 1 }

/-- The rounds of single elimination with `k` rounds and `byes` byes, with a third-place match
when `third` holds. -/
def singleLadder (k byes : Nat) (third : Bool) : List Round :=
  if third then
    (winnersRounds "match" (singleBuild byes k) k (2 ^ k)).modify (k - 2) (fun r =>
      { r with games := r.games.map fun m => { m with loserNext := (thirdMatch k).id } }) ++
      [{ number := .int (k + 1), name := .str "Third Place", games := [thirdMatch k] }]
  else winnersRounds "match" (singleBuild byes k) k (2 ^ k)

/-- A single elimination draw of `k` rounds with `byes` byes, with a third-place match when
`third` holds. -/
def singleDraw (k byes : Nat) (third : Bool) (tp seed : Value) : Bracket :=
  { format := .singleElimination, rounds := singleLadder k byes third, thirdPlace := tp,
    seed := seed }

/-- Single elimination for an integer count of teams: `⌈log₂ n⌉` rounds, as binary64 computes
it, over `2 ^ k` places, the places beyond `n` taken by byes. -/
theorem singleElimination_int {n : Int} (hn : 2 ≤ n) (tp seed : Value) :
    singleElimination (.int n) tp seed =
      .ok (singleDraw (Shape.ceilLog2 n.toNat) (2 ^ Shape.ceilLog2 n.toNat - n.toNat)
        (tp.truthy && decide (2 ≤ Shape.ceilLog2 n.toNat)) tp seed) := by
  unfold singleElimination singleDraw
  rw [Shape.knockout_int hn]
  -- the count of rounds is computed in binary64; nothing below depends on its value
  generalize Shape.ceilLog2 n.toNat = k
  by_cases h : tp.truthy = true ∧ 2 ≤ k
  · have h' : (tp.truthy && decide (2 ≤ k)) = true := by simp [h]
    rw [singleLadder, if_pos h']
    simp only [bind, Except.bind, if_pos h]
    rfl
  · have h' : (tp.truthy && decide (2 ≤ k)) = false := by
      simpa using h
    rw [singleLadder, if_neg (by simp [h'])]
    simp only [bind, Except.bind, if_neg h]
    rfl

/-- The match at place `(j, i)` of the winners rounds of single elimination: its losers go to
the third-place match from the semi-finals. -/
def singleGame (k byes : Nat) (third : Bool) (j i : Nat) : Match :=
  { winnersGame "match" k (2 ^ k) byes j i with
    loserNext := if third = true ∧ j + 2 = k then (thirdMatch k).id else .null }

theorem singleBuild_games (byes k r : Nat) (gs : List Match) :
    (singleBuild byes k r gs).games = if r = 1 then markByes byes gs else gs := rfl

theorem getElem?_singleLadder {k : Nat} (byes : Nat) {third : Bool} (hthird : third = true → 2 ≤ k)
    (j i : Nat) :
    ((singleLadder k byes third)[j]?).bind (·.games[i]?) =
      if j < k then (if i < 2 ^ k / 2 ^ (j + 1) then some (singleGame k byes third j i) else none)
      else if third = true ∧ j = k ∧ i = 0 then some (thirdMatch k) else none := by
  have hW := fun (hj : j < k) => @getElem?_winnersGames "match" k (2 ^ k) byes j rfl hj _
    (singleBuild_games byes k) i
  cases third with
  | false =>
    simp only [singleLadder, Bool.false_eq_true, if_false, false_and]
    split
    · next hj =>
      rw [hW hj]
      rfl
    · next hj =>
      rw [List.getElem?_eq_none (by simp; omega)]
      rfl
  | true =>
    simp only [singleLadder, if_true, true_and]
    split
    · next hj =>
      have h2 := hthird rfl
      rw [List.getElem?_append_left (by simp; omega), List.getElem?_modify]
      have hWj := hW hj
      obtain ⟨R, hR⟩ : ∃ R, (winnersRounds "match" (singleBuild byes k) k (2 ^ k))[j]? = some R :=
        Option.isSome_iff_exists.1 (by simp; omega)
      · rw [hR, Option.bind_some] at hWj
        rw [hR]
        simp only [Option.map_eq_map, Option.map_some, Option.bind_some]
        by_cases hkj : k - 2 = j
        · rw [if_pos hkj, List.getElem?_map, hWj]
          split
          · simp only [Option.map_some, singleGame, show j + 2 = k by omega]
            rfl
          · rfl
        · rw [if_neg hkj, hWj]
          split
          · simp only [singleGame, show ¬(j + 2 = k) by omega]
            rfl
          · rfl
    · next hj =>
      by_cases hjk : j = k
      · subst hjk
        rw [List.getElem?_append_right (by simp)]
        cases i <;> simp
      · rw [List.getElem?_eq_none (by simp; omega)]
        simp [hjk]

/-- The names of the matches of single elimination, by place. -/
def singleName (k : Nat) (p : Pos) : String := tag "match" (firstNumber (2 ^ k) p.round + p.index)

/-- The links of single elimination, by place: winners go on to the next round, the losers of
the semi-finals to the third-place match. -/
def singleLink (k : Nat) (third : Bool) (p : Pos) : Link → Option Pos
  | .next => if p.round + 1 < k then some ⟨p.round + 1, p.index / 2⟩ else none
  | .loserNext => if third = true ∧ p.round + 2 = k then some ⟨k, 0⟩ else none

section Single

variable {k byes : Nat} {third : Bool} {tp seed : Value}

theorem matchAt?_singleDraw (hthird : third = true → 2 ≤ k) (p : Pos) :
    (singleDraw k byes third tp seed).matchAt? p =
      if p.round < k then
        (if p.index < 2 ^ k / 2 ^ (p.round + 1) then some (singleGame k byes third p.round p.index)
        else none)
      else if third = true ∧ p.round = k ∧ p.index = 0 then some (thirdMatch k) else none :=
  getElem?_singleLadder byes hthird p.round p.index

theorem mem_singleDraw (hthird : third = true → 2 ≤ k) {p : Pos} :
    p ∈ (singleDraw k byes third tp seed).positions ↔
      (p.round < k ∧ p.index < 2 ^ k / 2 ^ (p.round + 1)) ∨
        (third = true ∧ p.round = k ∧ p.index = 0) := by
  rw [Bracket.mem_positions, matchAt?_singleDraw hthird]
  by_cases hj : p.round < k
  · by_cases hi : p.index < 2 ^ k / 2 ^ (p.round + 1)
    · simp [hj, hi]
    · simp only [hj, hi, if_true, if_false, Option.isSome_none, Bool.false_eq_true, and_false,
        false_or, false_iff, not_and]
      intro _ h
      omega
  · by_cases ht : third = true ∧ p.round = k ∧ p.index = 0
    · simp [ht]
    · simp only [hj, if_false, ht, Option.isSome_none, Bool.false_eq_true, false_and, false_or]

theorem game_singleDraw (hthird : third = true → 2 ≤ k) {p : Pos}
    (hp : p ∈ (singleDraw k byes third tp seed).positions) :
    (singleDraw k byes third tp seed).game p =
      if p.round < k then singleGame k byes third p.round p.index else thirdMatch k := by
  have hm := Bracket.matchAt?_eq_game hp
  rw [matchAt?_singleDraw hthird] at hm
  rcases (mem_singleDraw hthird).1 hp with ⟨hj, hi⟩ | ⟨ht, hj, hi⟩
  · rw [if_pos hj, if_pos hi] at hm
    rw [if_pos hj]
    exact (Option.some.inj hm).symm
  · rw [if_neg (by omega), if_pos ⟨ht, hj, hi⟩] at hm
    rw [if_neg (by omega)]
    exact (Option.some.inj hm).symm

theorem lane_singleLadder (hthird : third = true → 2 ≤ k) {j : Nat} (hj : j < k) :
    ((singleLadder k byes third)[j]?).map Round.lane = some (some .winners) := by
  have hW := @lane_winnersRounds "match" k (2 ^ k) j (singleBuild byes k)
    (fun _ _ => rfl) hj
  cases third with
  | false => exact hW
  | true =>
    have h2 := hthird rfl
    simp only [singleLadder, if_true]
    rw [List.getElem?_append_left (by simp; omega), List.getElem?_modify]
    split <;> simpa using hW

theorem lane_singleLadder_third (ht : third = true) :
    ((singleLadder k byes third)[k]?).map Round.lane = some none := by
  subst ht
  simp only [singleLadder, if_true]
  rw [List.getElem?_append_right (by simp)]
  simp

/-- The rounds of single elimination as a side is chosen from them: the winners rounds halve
from round to round, and the third-place round holds one match outside the winners lane. -/
theorem roundOf_singleDraw (hthird : third = true → 2 ≤ k) {j : Nat} (hj : j < k) :
    ((singleDraw k byes third tp seed).roundOf j).lane = some .winners ∧
      ((singleDraw k byes third tp seed).roundOf j).games.length = 2 ^ k / 2 ^ (j + 1) := by
  obtain ⟨r, hr⟩ : ∃ r, (singleLadder k byes third)[j]? = some r :=
    Option.isSome_iff_exists.1 (by
      have := @lane_singleLadder k byes third hthird j hj
      cases h : (singleLadder k byes third)[j]? <;> simp_all)
  have hround : (singleDraw k byes third tp seed).roundOf j = r := by
    simp [Bracket.roundOf, singleDraw, hr]
  rw [hround]
  constructor
  · have := @lane_singleLadder k byes third hthird j hj
    rw [hr] at this
    exact Option.some.inj this
  · refine length_eq_of_getElem? (f := singleGame k byes third j) fun i => ?_
    have := getElem?_singleLadder byes hthird j i
    rw [hr, Option.bind_some, if_pos hj] at this
    exact this

theorem roundOf_singleDraw_third (hthird : third = true → 2 ≤ k) (ht : third = true) :
    ((singleDraw k byes third tp seed).roundOf k).lane = none ∧
      ((singleDraw k byes third tp seed).roundOf k).games.length = 1 := by
  obtain ⟨r, hr⟩ : ∃ r, (singleLadder k byes third)[k]? = some r :=
    Option.isSome_iff_exists.1 (by
      have := @lane_singleLadder_third k byes third ht
      cases h : (singleLadder k byes third)[k]? <;> simp_all)
  have hround : (singleDraw k byes third tp seed).roundOf k = r := by
    simp [Bracket.roundOf, singleDraw, hr]
  rw [hround]
  constructor
  · have := @lane_singleLadder_third k byes third ht
    rw [hr] at this
    exact Option.some.inj this
  · refine length_eq_of_getElem? (f := fun _ => thirdMatch k) fun i => ?_
    have := getElem?_singleLadder byes hthird k i
    rw [hr, Option.bind_some, if_neg (Nat.lt_irrefl k)] at this
    rw [this]
    cases i <;> simp [ht]

theorem length_singleLadder :
    (singleLadder k byes third).length = k + if third then 1 else 0 := by
  cases third <;> simp [singleLadder]

theorem laid_singleDraw (hthird : third = true → 2 ≤ k) :
    (singleDraw k byes third tp seed).Laid (singleName k) (singleLink k third) where
  fixtures_eq := rfl
  groups_eq := rfl
  games_ne r hr := by
    obtain ⟨j, hj⟩ := List.mem_iff_getElem?.1 hr
    change (singleLadder k byes third)[j]? = some r at hj
    have h0 := getElem?_singleLadder byes hthird j 0
    rw [hj, Option.bind_some] at h0
    have hlen := (List.getElem?_eq_some_iff.1 hj).1
    rw [length_singleLadder] at hlen
    intro hnil
    rw [hnil] at h0
    by_cases hjk : j < k
    · rw [if_pos hjk, if_pos (Nat.div_pos (Nat.pow_le_pow_right (by omega) (by omega))
        (Nat.two_pow_pos _))] at h0
      cases h0
    · have : third = true ∧ j = k := by cases third <;> simp_all <;> omega
      rw [if_neg hjk, if_pos ⟨this.1, this.2, rfl⟩] at h0
      cases h0
  id_eq p hp := by
    rw [game_singleDraw hthird hp]
    split
    · rfl
    · obtain ⟨-, hj, hi⟩ := ((mem_singleDraw hthird).1 hp).resolve_left (by omega)
      simp only [singleName, hj, hi, Nat.add_zero]
      rfl
  name_ne p _ := tag_ne_empty _ _
  name_inj p hp q hq h := by
    refine @eq_of_firstNumber_eq (2 ^ k) p q (fun hlt => ?_) (fun hlt => ?_) (tag_inj.1 h)
    · rcases (mem_singleDraw hthird).1 hp with ⟨-, hi⟩ | ⟨-, hj, -⟩
      · exact hi
      · rcases (mem_singleDraw hthird).1 hq with ⟨hq', -⟩ | ⟨-, hj', -⟩ <;> omega
    · rcases (mem_singleDraw hthird).1 hq with ⟨-, hi⟩ | ⟨-, hj, -⟩
      · exact hi
      · rcases (mem_singleDraw hthird).1 hp with ⟨hp', -⟩ | ⟨-, hj', -⟩ <;> omega
  target_eq p hp lk := by
    rw [game_singleDraw hthird hp]
    split
    · next hj =>
      cases lk
      · simp only [Match.target, singleGame, winnersGame, singleLink]
        split <;> rfl
      · simp only [Match.target, singleGame, singleLink]
        split
        · simp [thirdMatch, singleName]
          rfl
        · rfl
    · next hj =>
      obtain ⟨-, hj', -⟩ := ((mem_singleDraw hthird).1 hp).resolve_left (by omega)
      cases lk <;> simp [Match.target, thirdMatch, singleLink, hj', show ¬(k + 1 < k) by omega]
  link_mem p hp lk q hl := by
    cases lk
    · simp only [singleLink] at hl
      split at hl
      · next hj =>
        cases hl
        rcases (mem_singleDraw hthird).1 hp with ⟨-, hi⟩ | ⟨-, hj', -⟩
        · have hc := count_eq_two_mul (rfl : 2 ^ k = 2 ^ k) (show p.round + 2 ≤ k by omega)
          refine ⟨(mem_singleDraw hthird).2 (.inl ⟨hj, ?_⟩), by simp⟩
          simp only [show p.round + 1 + 1 = p.round + 2 by omega]
          omega
        · omega
      · cases hl
    · simp only [singleLink] at hl
      split at hl
      · next h =>
        cases hl
        exact ⟨(mem_singleDraw hthird).2 (.inr ⟨h.1, rfl, rfl⟩), by simp; omega⟩
      · cases hl

/-- Where the team on side `s` of the match at `q` of single elimination comes from. -/
def singleSource (k : Nat) (q : Pos) (s : Side) : Option (Pos × Link) :=
  if q.round < k then
    if 0 < q.round then some (⟨q.round - 1, 2 * q.index + s.bit⟩, .next) else none
  else some (⟨k - 2, s.bit⟩, .loserNext)

/-- **Generated single elimination is wired.** Each match of a later round is fed by the two
matches before it, the even one on the first side, and the third-place match by the two
semi-finals the same way. -/
theorem wired_singleDraw (hthird : third = true → 2 ≤ k) :
    (singleDraw k byes third tp seed).Wired := by
  have hL := @laid_singleDraw k byes third tp seed hthird
  refine hL.wired (singleSource k) fun p hp lk q hl => ?_
  rw [hL.arrival_eq hp hl]
  cases lk
  · simp only [singleLink] at hl
    split at hl
    · next hj =>
      cases hl
      obtain ⟨l1, c1⟩ := @roundOf_singleDraw k byes third tp seed hthird _
        (show p.round < k by omega)
      obtain ⟨l2, c2⟩ := @roundOf_singleDraw k byes third tp seed hthird _ hj
      rw [show p.round + 1 + 1 = p.round + 2 by omega] at c2
      have hc := count_eq_two_mul (rfl : 2 ^ k = 2 ^ k) (show p.round + 2 ≤ k by omega)
      have hpos : 0 < 2 ^ k / 2 ^ (p.round + 2) :=
        Nat.div_pos (Nat.pow_le_pow_right (by omega) (by omega)) (Nat.two_pow_pos _)
      have hside : (singleDraw k byes third tp seed).preferred p ⟨p.round + 1, p.index / 2⟩ =
          Side.ofIndex p.index := by
        simp only [Bracket.preferred, preferredSide, l1, l2, c1, c2, Option.some.injEq,
          reduceCtorEq, false_and, if_false]
        rw [if_pos (by omega)]
      simp only [reduceCtorEq, false_and, if_false, hside, singleSource, if_pos hj,
        if_pos (Nat.succ_pos _), Side.bit_ofIndex, Option.some.injEq, Prod.mk.injEq, and_true]
      cases p
      simp only [Pos.mk.injEq, Nat.add_sub_cancel, true_and]
      omega
    · cases hl
  · simp only [singleLink] at hl
    split at hl
    · next h =>
      cases hl
      obtain ⟨ht, hk⟩ := h
      obtain ⟨l1, c1⟩ := @roundOf_singleDraw k byes third tp seed hthird _
        (show p.round < k by omega)
      obtain ⟨l2, c2⟩ := @roundOf_singleDraw_third k byes third tp seed
        hthird ht
      have htwo : 2 ^ k / 2 ^ (p.round + 1) = 2 := by
        rw [Nat.pow_div (by omega) (by omega), show k - (p.round + 1) = 1 by omega]
      have hi : p.index < 2 := by
        rcases (mem_singleDraw hthird).1 hp with ⟨-, hi⟩ | ⟨-, hj, -⟩
        · omega
        · omega
      have hside : (singleDraw k byes third tp seed).preferred p ⟨k, 0⟩ = Side.ofIndex p.index := by
        simp only [Bracket.preferred, preferredSide, l1, l2, c1, c2, htwo, reduceCtorEq, false_and,
          if_false]
        rw [if_pos (by omega)]
      have hnext : singleLink k third p .next ≠ some ⟨k, 0⟩ := by
        intro h
        simp only [singleLink] at h
        split at h
        · simp only [Option.some.injEq, Pos.mk.injEq] at h
          omega
        · cases h
      simp only [true_and, hnext, if_false, hside, singleSource, Nat.lt_irrefl, Side.bit_ofIndex,
        Option.some.injEq, Prod.mk.injEq, and_true]
      cases p
      simp only [Pos.mk.injEq] at hk hi ⊢
      omega
    · cases hl

/-- **Generated single elimination is fresh**: wired, its byes first in the first round, and
nothing played. -/
theorem fresh_singleDraw (n : Nat) (hk : 1 ≤ k) (hthird : third = true → 2 ≤ k) :
    (singleDraw k (2 ^ k - n) third tp seed).Fresh n (2 ^ k / 2) where
  wired := wired_singleDraw hthird
  format_ne := by simp [singleDraw]
  width_pos := Nat.div_pos (Nat.le_self_pow (by omega) 2) (by omega)
  first := by
    obtain ⟨-, c⟩ := @roundOf_singleDraw k (2 ^ k - n) third tp seed hthird _
      (show 0 < k by omega)
    obtain ⟨r, hr⟩ : ∃ r, (singleLadder k (2 ^ k - n) third)[0]? = some r :=
      Option.isSome_iff_exists.1 (by simp [length_singleLadder]; omega)
    simp only [Bracket.roundOf, singleDraw, hr, Option.getD_some, Nat.zero_add,
      Nat.pow_one] at c
    simp [singleDraw, hr, c]
  blank p hp := by
    have hbyes : 2 * (2 ^ k / 2) - n = 2 ^ k - n := by
      rw [Nat.mul_div_cancel' (Nat.dvd_of_mod_eq_zero (Nat.two_pow_mod_two_eq_zero.2 (by omega)))]
    rw [game_singleDraw hthird hp, hbyes]
    split
    · simp [Match.Blank, singleGame, winnersGame]
    · next hj =>
      have : ¬(p.round = 0 ∧ p.index < 2 ^ k - n) := fun h => hj (by omega)
      simp [Match.Blank, thirdMatch, if_neg this]

end Single

/-- Generated single elimination, for any count of two teams or more, is fresh. -/
theorem fresh_singleElimination {n : Int} (hn : 2 ≤ n) {tp seed : Value} {b : Bracket}
    (h : singleElimination (.int n) tp seed = .ok b) : ∃ width, b.Fresh n.toNat width := by
  rw [singleElimination_int hn] at h
  cases h
  exact ⟨_, fresh_singleDraw n.toNat (Shape.one_le_ceilLog2 (by omega))
    (fun h => by simp at h; exact h.2)⟩

end Generate

end TournamentDraw
