import TournamentDraw.Proofs.ResultOrder

/-!
# Placing seeds into a generated knockout draw

`Step.placeTeams` fills the first round of a fresh knockout draw: the bye matches take the top
seeds on their first side, each other match the best seed left against the worst, and the bye
pass then sends the top seeds on. The first round has room for `B + 2 * P` teams, `B` bye
matches and `P` others; in a draw generated for `n` teams that is `n` exactly, so placement
refuses more seeds than the draw was made for, naming the room, and takes any fewer.

For as many seeds as teams, `Seated` describes the first round afterwards: every seed stands on
exactly one side of it, bye match `i` is won by seed `i`, who already stands in the match of the
second round its link leads to, and match `B + k` holds seeds `B + k` and `n - 1 - k`, still to
be played. The bye pass is followed with `Untouched` beside the invariant of the pass
(`Clearing`): the first-round matches that face no bye keep the teams they were seated with and
are never decided. After the pass nothing faces the bye, so a second pass changes nothing.

Seeds are non-empty texts other than the bye. An empty seed is seated like any other, but the
bye pass does not send a false value on, so its round-two match stays short of it.
-/

open scoped BigOperators

namespace TournamentDraw

namespace Bracket

variable {b : Bracket}

theorem sent_le_inflow {p : Pos} (hp : p ∈ b.positions) (k : Link) (q : Pos) :
    b.sent p k q ≤ b.inflow q := by
  refine le_trans ?_ (Finset.single_le_sum (f := fun p' => b.sent p' .next q +
    b.sent p' .loserNext q) (fun _ _ => Multiset.zero_le _) hp)
  cases k
  · exact Multiset.le_add_right _ _
  · exact Multiset.le_add_left _ _

end Bracket

namespace Match

theorem eq_or_eq_of_mem_sides {m : Match} {v : Value} (h : v ∈ m.sides) :
    m.team1 = v ∨ m.team2 = v := by
  unfold sides at h
  rcases Multiset.mem_add.1 h with h | h
  · split at h
    · cases h
    · exact .inl (Multiset.mem_singleton.1 h).symm
  · split at h
    · cases h
    · exact .inr (Multiset.mem_singleton.1 h).symm

/-- A bye match takes its seed on the first side. -/
theorem seated_bye_team1 (m : Match) {teams : List Value} {B i : Nat} (hi : i < B) {v : Value}
    (hv : teams[i]? = some v) : (m.seated teams B i).team1 = v := by
  obtain ⟨ht, rfl⟩ := List.getElem?_eq_some_iff.1 hv
  unfold seated
  rw [if_pos hi, dif_pos ht]

/-- Match `B + k` takes the `k`-th seed after the byes and the `k`-th from the end, when the
seeds left fill the `P` matches after the byes. -/
theorem seated_play_teams (m : Match) {teams : List Value} {B P k : Nat}
    (hlen : teams.length = B + 2 * P) (hk : k < P) {v₁ v₂ : Value}
    (h₁ : teams[B + k]? = some v₁) (h₂ : teams[B + 2 * P - 1 - k]? = some v₂) :
    (m.seated teams B (B + k)).team1 = v₁ ∧ (m.seated teams B (B + k)).team2 = v₂ := by
  unfold seated
  rw [if_neg (by omega), Nat.add_sub_cancel_left]
  have hL : (teams.drop B).length = 2 * P := by
    rw [List.length_drop, hlen]
    omega
  have hj : ((teams.drop B).length : Int) - 1 - (k : Nat) = ((2 * P - 1 - k : Nat) : Int) := by
    rw [hL]
    omega
  dsimp only
  rw [hj, if_neg (by omega), Step.teamAt_natCast, Step.teamAt_natCast, List.getElem?_drop,
    List.getElem?_drop, show B + (2 * P - 1 - k) = B + 2 * P - 1 - k by omega, h₁, h₂]
  exact ⟨rfl, rfl⟩

end Match

namespace Routed

variable {b : Bracket} {p q : Pos}

/-- **A completed match has sent its teams on.** In a routed draw with nothing owed, the team a
completed match sends along a link stands on a side of the match the link leads to. -/
theorem mover_mem_sides (h : Routed b []) (hp : p ∈ b.positions)
    (hc : (b.game p).isCompleted = true) {k : Link} (hd : b.dest p k = some q) :
    (b.game p).mover k ∈ (b.game q).sides := by
  have hq := Bracket.mem_positions_of_dest h.wired hd
  have hbal := h.balanced q hq
    (Nat.lt_of_le_of_lt (Nat.zero_le _) (Bracket.round_lt_of_dest h.wired hp hd))
  rw [Bracket.owed_nil, add_zero] at hbal
  have hsent : b.sent p k q = {(b.game p).mover k} := by
    unfold Bracket.sent
    rw [if_pos ⟨hc, hd, h.mover_truthy hp hc k⟩]
  rw [hbal]
  exact Multiset.mem_of_le (hsent ▸ Bracket.sent_le_inflow hp k q) (Multiset.mem_singleton_self _)

end Routed

/-- The first-round matches the bye pass leaves alone: a match that faces no bye in the draw
`c₀` the pass starts from stands as it did, and no decision is owed for it. -/
def Untouched (c₀ b : Bracket) (ps : List Pending) : Prop :=
  ∀ i, (c₀.game ⟨0, i⟩).byeWinner? = none →
    b.game ⟨0, i⟩ = c₀.game ⟨0, i⟩ ∧ ∀ w, Pending.decide ⟨0, i⟩ w ∉ ps

namespace Untouched

variable {c₀ b : Bracket} {ps : List Pending} {p q : Pos}

theorem start : Untouched c₀ c₀ [] := fun _ _ => ⟨rfl, fun _ h => by cases h⟩

theorem decide {w : Value} (h : Untouched c₀ b (.decide p w :: ps)) :
    Untouched c₀ (b.decideAt p w) (b.seatsAfter p w ++ ps) := fun i hi => by
  obtain ⟨hg, hd⟩ := h i hi
  have hne : (⟨0, i⟩ : Pos) ≠ p := fun he => hd w (by rw [he]; exact List.mem_cons_self)
  refine ⟨by rw [Bracket.decideAt, Bracket.game_modifyAt_ne _ _ hne, hg], fun w' hw' => ?_⟩
  rcases List.mem_append.1 hw' with hs | hs
  · exact Pending.decide_not_mem_seatsAfter hs
  · exact hd w' (List.mem_cons_of_mem _ hs)

theorem of_seat {k : Link} {x : Value} (h : Untouched c₀ b (.seat p k x :: ps)) :
    Untouched c₀ b ps :=
  fun i hi => ⟨(h i hi).1, fun w hw => (h i hi).2 w (List.mem_cons_of_mem _ hw)⟩

/-- Seating a team past the first round touches no first-round match. -/
theorem seatAt {x : Value} {s : Side} (h : Untouched c₀ b ps) (hq : 0 < q.round) :
    Untouched c₀ (b.seatAt q x s) ps := fun i hi => by
  obtain ⟨hg, hd⟩ := h i hi
  have hne : (⟨0, i⟩ : Pos) ≠ q := fun he => by
    rw [← he] at hq
    exact absurd hq (lt_irrefl 0)
  exact ⟨by rw [Bracket.seatAt, Bracket.game_modifyAt_ne _ _ hne, hg], hd⟩

/-- A match that faces the bye is none of those left alone, so settling it keeps them. -/
theorem settles (h : Untouched c₀ b ps) (q : Pos) : Settles (Untouched c₀) b q ps := by
  unfold Settles
  cases hbye : (b.game q).byeWinner? with
  | none => exact h
  | some w =>
    show Untouched c₀ (b.markAt q) (.decide q w :: ps)
    intro i hi
    obtain ⟨hg, hd⟩ := h i hi
    have hne : (⟨0, i⟩ : Pos) ≠ q := fun he => by
      rw [← he, hg, hi] at hbye
      cases hbye
    refine ⟨by rw [Bracket.markAt, Bracket.game_modifyAt_ne _ _ hne, hg], fun w' hw' => ?_⟩
    rcases List.mem_cons.1 hw' with he | hw'
    · exact hne (Pending.decide.inj he).1
    · exact hd w' hw'

end Untouched

/-- **The bye pass leaves the matches without a bye alone.** Over a seated first round, the
pass runs to the end, and every first-round match that faced no bye stands as it was seated. -/
theorem Clearing.resolveByes_untouched {c₀ : Bracket} (hR : Routed c₀ [])
    (hopen : ∀ i, (c₀.game ⟨0, i⟩).isCompleted = false)
    (hne : ∀ i, (c₀.game ⟨0, i⟩).team1 ≠ .str byeTeam) :
    ∃ c, Step.exec Step.resolveByes c₀ = (.ok (), c) ∧ Clearing c₀ [] c [] ∧
      Untouched c₀ c [] :=
  Cascade.resolveByes (J := fun xs b ps => Clearing c₀ xs b ps ∧ Untouched c₀ b ps)
    (fun _ => Clearing.cascade.and (fun _ _ _ _ _ h => h.decide)
      (fun _ _ _ _ _ _ _ h₁ h₂ hp hq => (h₂.of_seat.seatAt (Nat.lt_of_le_of_lt (Nat.zero_le _)
        (Bracket.round_lt_of_dest h₁.routed.wired hp hq))).settles _))
    (fun _ _ _ h => h.1.skeleton_eq) (fun _ _ _ h => (h.1.visit hne).and (h.2.settles _))
    ⟨Clearing.start hR hopen, Untouched.start⟩

/-- A knockout draw generated for `n` teams: single elimination, with or without a match for
third place, or double elimination. -/
def Generated (n : Nat) (b : Bracket) : Prop :=
  (∃ tp seed, Generate.singleElimination (.int n) tp seed = .ok b) ∨
    ∃ seed, Generate.doubleElimination (.int n) seed = .ok b

namespace Generated

variable {n : Nat} {b : Bracket}

/-- A generated draw is fresh, its first round half as wide as the power of two it is drawn
for. -/
theorem fresh (hn : 2 ≤ n) (h : Generated n b) : b.Fresh n (2 ^ Shape.ceilLog2 n / 2) := by
  have h2 : (2 : Int) ≤ (n : Int) := by exact_mod_cast hn
  rcases h with ⟨tp, seed, h⟩ | ⟨seed, h⟩
  · rw [Generate.singleElimination_int h2, Int.toNat_natCast] at h
    cases h
    exact Generate.fresh_singleDraw n (Shape.one_le_ceilLog2 hn) (fun h => by simp at h; exact h.2)
  · rw [Generate.doubleElimination_int h2, Int.toNat_natCast] at h
    cases h
    exact Generate.fresh_doubleDraw n (Shape.one_le_ceilLog2 hn)

/-- In a generated draw of more than one round, first-round matches `2 j` and `2 j + 1` lead
to match `j` of the second round. -/
theorem dest_first (hn : 2 ≤ n) (h : Generated n b) {i : Nat} (hk : 1 < Shape.ceilLog2 n)
    (hi : i < 2 ^ Shape.ceilLog2 n / 2) : b.dest ⟨0, i⟩ .next = some ⟨1, i / 2⟩ := by
  have hp := (h.fresh hn).mem_first hi
  have h2 : (2 : Int) ≤ (n : Int) := by exact_mod_cast hn
  rcases h with ⟨tp, seed, h⟩ | ⟨seed, h⟩
  · rw [Generate.singleElimination_int h2, Int.toNat_natCast] at h
    cases h
    rw [(Generate.laid_singleDraw (fun h => by simp at h; exact h.2)).dest_eq hp]
    simp [Generate.singleLink, hk]
  · rw [Generate.doubleElimination_int h2, Int.toNat_natCast] at h
    cases h
    rw [(Generate.laid_doubleDraw (Shape.one_le_ceilLog2 hn)).dest_eq hp]
    simp [Generate.doubleLink, hk]

end Generated

/-- The first round of a knockout draw `w` matches wide, the first `B` of them byes, once as
many seeds `ids` as it has room for are placed: every seed stands on one side of it; bye match
`i` is won by seed `i`, who stands in the second-round match its link leads to; match `B + k`
holds seeds `B + k` and `n - 1 - k` and is still to be played. -/
structure Seated (ids : List String) (B w : Nat) (c : Bracket) : Prop where
  width : ∀ i, (⟨0, i⟩ : Pos) ∈ c.positions ↔ i < w
  placed : c.firstSides.filter (fun v => !v.eqv (.str byeTeam)) = ↑(ids.map Value.str)
  bye : ∀ i s, i < B → ids[i]? = some s →
    (c.game ⟨0, i⟩).team1 = .str s ∧ (c.game ⟨0, i⟩).team2 = .str byeTeam ∧
      (c.game ⟨0, i⟩).isCompleted = true ∧ (c.game ⟨0, i⟩).winner = .str s ∧
      c.dest ⟨0, i⟩ .next = some ⟨1, i / 2⟩ ∧
      ((c.game ⟨1, i / 2⟩).team1 = .str s ∨ (c.game ⟨1, i / 2⟩).team2 = .str s)
  play : ∀ k s t, B + k < w → ids[B + k]? = some s → ids[ids.length - 1 - k]? = some t →
    (c.game ⟨0, B + k⟩).team1 = .str s ∧ (c.game ⟨0, B + k⟩).team2 = .str t ∧
      (c.game ⟨0, B + k⟩).isCompleted = false

namespace Bracket.Fresh

section Placed

variable {b c : Bracket} {n w : Nat} {ids : List String}

theorem game_seatFirst_first (hF : b.Fresh n w) (teams : List Value) {i : Nat} (hi : i < w) :
    (b.seatFirst teams).game ⟨0, i⟩ = (b.game ⟨0, i⟩).seated teams (min (2 * w - n) w) i := by
  rw [hF.game_seatFirst, if_pos ⟨rfl, hi⟩]

/-- After the pass, bye match `i` holds seed `i` against the bye, and seed `i` has won it. -/
theorem bye_placed (hF : b.Fresh n w) (hids : ∀ s ∈ ids, s ≠ "" ∧ s ≠ byeTeam)
    (hc : Clearing (b.seatFirst (ids.map .str)) [] c []) {i : Nat} {s : String}
    (hi : i < min (2 * w - n) w) (hs : ids[i]? = some s) :
    (c.game ⟨0, i⟩).team1 = .str s ∧ (c.game ⟨0, i⟩).team2 = .str byeTeam ∧
      (c.game ⟨0, i⟩).isCompleted = true ∧ (c.game ⟨0, i⟩).winner = .str s := by
  have hiw : i < w := by omega
  have hpos : c.positions = b.positions :=
    (positions_eq_of_skeleton hc.skeleton_eq).trans (positions_seatFirst _)
  have hv : (ids.map Value.str)[i]? = some (.str s) := by rw [List.getElem?_map, hs]; rfl
  have hlen : i < (ids.map Value.str).length := (List.getElem?_eq_some_iff.1 hv).1
  have h1 : ((b.seatFirst (ids.map .str)).game ⟨0, i⟩).team1 = .str s := by
    rw [hF.game_seatFirst_first _ hiw]
    exact Match.seated_bye_team1 _ hi hv
  have h2 : ((b.seatFirst (ids.map .str)).game ⟨0, i⟩).team2 = .str byeTeam := by
    rw [hF.game_seatFirst_first _ hiw]
    exact (hF.seated_bye hi hlen).2
  have hbye : s ≠ byeTeam := (hids s (List.mem_of_getElem? hs)).2
  obtain ⟨hdone, hwin⟩ := hc.bye_decided (hpos ▸ hF.mem_first hiw) (by rw [h1]; exact nofun)
    (by rw [h1]; exact fun h => hbye (Value.str.inj h)) h2
  exact ⟨(hc.teams_eq i).1.trans h1, (hc.teams_eq i).2.trans h2, hdone, hwin.trans h1⟩

/-- After the pass, match `B + k` holds the `k`-th seed after the byes and the `k`-th from
the end, unplayed. -/
theorem play_placed (hF : b.Fresh n w) (hids : ∀ s ∈ ids, s ≠ "" ∧ s ≠ byeTeam)
    (hlen : ids.length = n) (hsplit : n = min (2 * w - n) w + 2 * (w - min (2 * w - n) w))
    (hu : Untouched (b.seatFirst (ids.map .str)) c []) {k : Nat} {s t : String}
    (hk : min (2 * w - n) w + k < w) (hs : ids[min (2 * w - n) w + k]? = some s)
    (ht : ids[ids.length - 1 - k]? = some t) :
    (c.game ⟨0, min (2 * w - n) w + k⟩).team1 = .str s ∧
      (c.game ⟨0, min (2 * w - n) w + k⟩).team2 = .str t ∧
      (c.game ⟨0, min (2 * w - n) w + k⟩).isCompleted = false := by
  set B := min (2 * w - n) w with hB
  have h₁ : (ids.map Value.str)[B + k]? = some (.str s) := by rw [List.getElem?_map, hs]; rfl
  have h₂ : (ids.map Value.str)[B + 2 * (w - B) - 1 - k]? = some (.str t) := by
    rw [List.getElem?_map, show B + 2 * (w - B) - 1 - k = ids.length - 1 - k by omega, ht]
    rfl
  obtain ⟨hs1, ht2⟩ := Match.seated_play_teams (b.game ⟨0, B + k⟩)
    (by rw [List.length_map, hlen]; exact hsplit) (show k < w - B by omega) h₁ h₂
  rw [← hF.game_seatFirst_first _ hk] at hs1 ht2
  have hopen := hF.open_seatFirst (ids.map .str) (B + k)
  have hsb : s ≠ byeTeam := (hids s (List.mem_of_getElem? hs)).2
  have htb : t ≠ byeTeam := (hids t (List.mem_of_getElem? ht)).2
  -- both sides hold seeds, so the match faces no bye and the pass leaves it as seated
  have hnone : ((b.seatFirst (ids.map .str)).game ⟨0, B + k⟩).byeWinner? = none := by
    simp [Match.byeWinner?, hs1, ht2, hopen, Value.isNull, Value.eqv_str_iff, Ne.symm hsb,
      Ne.symm htb]
  rw [(hu _ hnone).1]
  exact ⟨hs1, ht2, hopen⟩

/-- **The first round after placement.** As many distinct seeds as the first round has
room for, seated and then cleared of byes, leave it as `Seated` says, given that first-round
bye matches lead to the second round as generated draws do. -/
theorem seated_of_clearing (hF : b.Fresh n w) (hids : ∀ s ∈ ids, s ≠ "" ∧ s ≠ byeTeam)
    (hlen : ids.length = n) (hwn : w < n) (hn : n ≤ 2 * w)
    (hdest : ∀ i, i < min (2 * w - n) w → b.dest ⟨0, i⟩ .next = some ⟨1, i / 2⟩)
    (hc : Clearing (b.seatFirst (ids.map .str)) [] c [])
    (hu : Untouched (b.seatFirst (ids.map .str)) c []) : Seated ids (min (2 * w - n) w) w c := by
  have hpos : c.positions = b.positions :=
    (positions_eq_of_skeleton hc.skeleton_eq).trans (positions_seatFirst _)
  have hskel : c.skeleton = b.skeleton := hc.skeleton_eq.trans (skeleton_seatFirst _)
  refine ⟨fun i => ?_, (hF.firstRoundOf_clearing hids hlen hwn.le hn hc).placed,
    fun i s hi hs => ?_, fun k s t hk hs ht => hF.play_placed hids hlen (by omega) hu hk hs ht⟩
  · rw [hpos]
    exact ⟨hF.lt_of_mem_first, hF.mem_first⟩
  · obtain ⟨h1, h2, hdone, hwin⟩ := hF.bye_placed hids hc hi hs
    have hd : c.dest ⟨0, i⟩ .next = some ⟨1, i / 2⟩ := by
      rw [dest_eq_of_skeleton hF.wired hc.routed.wired hskel]
      exact hdest i hi
    -- the winner of the bye has been sent along its link
    have hsent := hc.routed.mover_mem_sides (hpos ▸ hF.mem_first (by omega)) hdone hd
    rw [Match.mover, hwin] at hsent
    exact ⟨h1, h2, hdone, hwin, hd, Match.eq_or_eq_of_mem_sides hsent⟩

end Placed

end Bracket.Fresh

/-- **Placement uses every seed exactly once.** In a knockout draw generated for `n` teams,
whose power of two `S` is the one in `[n, 2 n)`, placing distinct seeds is refused, naming the
room of `n` and the count, when there are more than `n`, and the draw is left as it was; any
number up to `n` is placed. For exactly `n` seeds the `S - n` bye matches go to the top seeds,
who have won them and stand in the second round, and the other first-round matches pair the
best seed left with the worst, unplayed. A second bye pass changes nothing. -/
theorem placement_uses_every_seed_once {n : Nat} (hn : 2 ≤ n) (hlo : n ≤ 2 ^ Shape.ceilLog2 n)
    (hhi : 2 ^ Shape.ceilLog2 n < 2 * n) {b : Bracket} (hb : Generated n b) {ids : List String}
    (hnd : ids.Nodup) (hids : ∀ s ∈ ids, s ≠ "" ∧ s ≠ byeTeam) :
    (n < ids.length →
      Step.exec (Step.placeTeams (ids.map .str)) b = (.error (.noRoom n ids.length), b)) ∧
    (ids.length ≤ n → ∃ c, Step.exec (Step.placeTeams (ids.map .str)) b = (.ok (), c)) ∧
    (ids.length = n → ∃ c, Step.exec (Step.placeTeams (ids.map .str)) b = (.ok (), c) ∧
      Seated ids (2 ^ Shape.ceilLog2 n - n) (2 ^ Shape.ceilLog2 n / 2) c ∧
      Step.exec Step.resolveByes c = (.ok (), c)) := by
  have hF := hb.fresh hn
  have hk := Shape.one_le_ceilLog2 hn
  have heven : 2 ^ Shape.ceilLog2 n = 2 * (2 ^ Shape.ceilLog2 n / 2) := by
    obtain ⟨j, hj⟩ : ∃ j, Shape.ceilLog2 n = j + 1 := ⟨_, (Nat.succ_pred_eq_of_pos hk).symm⟩
    rw [hj, pow_succ]
    omega
  -- a draw with a bye has more than one round
  have hrounds : n < 2 ^ Shape.ceilLog2 n → 1 < Shape.ceilLog2 n := fun h => by
    by_contra hk'
    rw [show Shape.ceilLog2 n = 1 by omega, pow_one] at h
    omega
  set S := 2 ^ Shape.ceilLog2 n with hS
  set w := S / 2 with hw
  -- the room of the first round is the count the draw is made for
  have hroom : min (2 * w - n) w + 2 * (w - min (2 * w - n) w) = n := by omega
  refine ⟨fun hgt => ?_, fun hle => ?_, fun hlen => ?_⟩
  · have h := hF.exec_placeTeams_of_room_lt
      (show _ < (ids.map Value.str).length by rw [hroom, List.length_map]; exact hgt)
    rwa [hroom, List.length_map] at h
  · obtain ⟨c, hrun, hc, -⟩ := (hF.flowing_seatFirst fun s hs => (hids s hs).1).resolveByes
    exact ⟨c, hF.exec_placeTeams_of_le_room (by rw [hroom, List.length_map]; exact hle) hrun
      hc.wired.fixtures_eq⟩
  · obtain ⟨c, hrun, hc, hu⟩ := Clearing.resolveByes_untouched
      (hF.routed_seatFirst hnd hids hlen (by omega)) (hF.open_seatFirst _)
      (hF.team1_seatFirst_ne hids)
    have hB : min (2 * w - n) w = S - n := by omega
    refine ⟨c, hF.exec_placeTeams_of_le_room (by rw [hroom, List.length_map, hlen]) hrun
      hc.routed.wired.fixtures_eq, ?_,
      exec_resolveByes_of_settled hc.routed.wired fun q hq => hc.byeWinner?_eq_none hq⟩
    rw [← hB]
    exact hF.seated_of_clearing hids hlen (by omega) (by omega)
      (fun i hi => hb.dest_first hn (hrounds (by omega)) (by omega)) hc hu

/-- Three seeds in a single elimination draw for three teams. -/
theorem placement_three_seeds : ∃ b, Generated 3 b ∧
    (3 < ["a", "b", "c"].length → Step.exec (Step.placeTeams (["a", "b", "c"].map .str)) b =
      (.error (.noRoom 3 ["a", "b", "c"].length), b)) ∧
    (["a", "b", "c"].length ≤ 3 →
      ∃ c, Step.exec (Step.placeTeams (["a", "b", "c"].map .str)) b = (.ok (), c)) ∧
    (["a", "b", "c"].length = 3 →
      ∃ c, Step.exec (Step.placeTeams (["a", "b", "c"].map .str)) b = (.ok (), c) ∧
        Seated ["a", "b", "c"] (2 ^ Shape.ceilLog2 3 - 3) (2 ^ Shape.ceilLog2 3 / 2) c ∧
        Step.exec Step.resolveByes c = (.ok (), c)) := by
  obtain ⟨b, hb⟩ : ∃ b, Generate.singleElimination (.int ((3 : Nat) : Int)) .null .null = .ok b :=
    ⟨_, Generate.singleElimination_int (by decide) _ _⟩
  have hk : Shape.ceilLog2 3 = 2 :=
    Shape.ceilLog2_eq_of_bounds (by decide) (by decide) (by decide) (by decide)
  exact ⟨b, .inl ⟨_, _, hb⟩,
    placement_uses_every_seed_once (by decide) (by rw [hk]; decide) (by rw [hk]; decide)
      (.inl ⟨_, _, hb⟩) (by decide) (by decide)⟩

/-- An empty seed is placed but not sent on: with seeds `""`, `b` and `c` in a single
elimination draw for three teams, the empty seed wins its bye match and its second-round match
stays empty. -/
theorem empty_seed_left_out_of_round_two :
    ∃ b c, Generated 3 b ∧ Step.exec (Step.placeTeams (["", "b", "c"].map .str)) b = (.ok (), c) ∧
      (c.game ⟨0, 0⟩).isCompleted = true ∧ (c.game ⟨0, 0⟩).winner = .str "" ∧
      (c.game ⟨1, 0⟩).team1 = .null ∧ (c.game ⟨1, 0⟩).team2 = .null := by
  have hk : Shape.ceilLog2 3 = 2 :=
    Shape.ceilLog2_eq_of_bounds (by decide) (by decide) (by decide) (by decide)
  have hb : Generate.singleElimination (.int ((3 : Nat) : Int)) .null .null =
      .ok (Generate.singleDraw 2 1 false .null .null) := by
    rw [Generate.singleElimination_int (by decide), Int.toNat_natCast, hk]
    rfl
  have hok : (Step.exec (Step.placeTeams (["", "b", "c"].map .str))
      (Generate.singleDraw 2 1 false .null .null)).1.toBool = true := by decide
  exact ⟨_, _, .inl ⟨_, _, hb⟩, Step.exec_eq_ok_of_toBool hok, by decide, rfl, rfl, rfl⟩

end TournamentDraw
