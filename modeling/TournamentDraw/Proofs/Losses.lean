import TournamentDraw.Proofs.PlayOut
import TournamentDraw.Proofs.Lanes

/-!
# Who loses where

Once every match of a knockout draw is completed, every team of the first round has left the
draw exactly once along a link that leads nowhere: as the winner of a match with no next
match, or as the loser of one with no losers' match (`Routed.exits_eq`). Within the winners
lane, every team of the first round is beaten once, except the winner of its final
(`Routed.winnersLane_exits`); past it, in double elimination, every team is beaten once except
the champion (`Routed.grandFinal_exits`).

A draw the entrants have played out (`PlayedOut`) has each entrant once in its first round,
and the bye loses each first-round match it stands in. Counting one entrant in the identities
gives its losses (`PlayedOut.lane_losses`, `PlayedOut.double_losses`), and counting the bye
shows that it never wins the winners lane (`PlayedOut.winner_final_mem`). Together with the
play-out of `PlayOut` this is `knockout_plays_to_the_end`: a generated knockout draw with its
entrants placed is played to the end by any run of decisive results.
-/

open scoped BigOperators

namespace TournamentDraw

namespace Bracket

/-- The matches of `Q` that `t` lost on the field: completed, not passed against the bye, with
`t` as loser. -/
def lossesIn (b : Bracket) (Q : Finset Pos) (t : Value) : Nat :=
  (Q.filter fun q => (b.game q).isCompleted && !(b.game q).autoAdvance.truthy &&
    (b.game q).loser.eqv t).card

/-- The matches of the winners lane. -/
def winnersLane (b : Bracket) : Finset Pos :=
  b.positions.filter fun q => (b.roundOf q.round).lane = some .winners

variable {b : Bracket} {p q : Pos} {k : Link}

theorem WinnersLane.winnersLane_eq {R : Nat} (h : b.WinnersLane R) :
    b.winnersLane = b.positions.filter (·.round < R) :=
  Finset.filter_congr fun p hp => h.lane p hp

theorem dest_of_sent_ne_zero (h : b.sent p k q ≠ 0) : b.dest p k = some q := by
  unfold sent at h
  split at h
  · next hc => exact hc.2.1
  · exact absurd rfl h

theorem sum_sent_of_dest_none (hd : b.dest p k = none) (Q : Finset Pos) :
    ∑ q ∈ Q, b.sent p k q = 0 :=
  Finset.sum_eq_zero fun q _ => by
    by_contra hne
    rw [dest_of_sent_ne_zero hne] at hd
    cases hd

/-- Rounds of the winners lane, picked out of the lane, are those rounds of the draw. -/
theorem filter_lane_filter {R : Nat} {P : Pos → Prop} [DecidablePred P]
    (h : ∀ q, P q → q.round < R) :
    (b.positions.filter (·.round < R)).filter P = b.positions.filter P := by
  rw [Finset.filter_filter]
  exact Finset.filter_congr fun q _ => ⟨fun hq => hq.2, fun hq => ⟨h q hq, hq⟩⟩

end Bracket

namespace Routed

variable {b : Bracket} {p : Pos} {R : Nat}

/-- A completed match sends the team that moves along a link to the match it leads to. -/
theorem sum_sent_of_dest (h : Routed b []) (hp : p ∈ b.positions)
    (hc : (b.game p).isCompleted = true) {k : Link} {q₀ : Pos} (hd : b.dest p k = some q₀)
    (Q : Finset Pos) :
    ∑ q ∈ Q, b.sent p k q = if q₀ ∈ Q then {(b.game p).mover k} else 0 := by
  have hsent : ∀ q, b.sent p k q = if q₀ = q then {(b.game p).mover k} else 0 := fun q => by
    unfold Bracket.sent
    by_cases he : q₀ = q
    · rw [if_pos ⟨hc, by rw [hd, he], h.mover_truthy hp hc k⟩, if_pos he]
    · rw [if_neg (fun hh => he (Option.some.inj (hd.symm.trans hh.2.1))), if_neg he]
  simp only [hsent]
  exact Finset.sum_ite_eq Q q₀ _

/-- A completed match sends the team that moves along a link into the draw, unless the link
leads nowhere. -/
theorem sum_sent_add_exit (h : Routed b []) (hp : p ∈ b.positions)
    (hc : (b.game p).isCompleted = true) (k : Link) :
    ∑ q ∈ b.positions, b.sent p k q + (if b.dest p k = none then {(b.game p).mover k} else 0) =
      {(b.game p).mover k} := by
  cases hd : b.dest p k with
  | none => rw [Bracket.sum_sent_of_dest_none hd, if_pos rfl, zero_add]
  | some q₀ =>
    rw [h.sum_sent_of_dest hp hc hd, if_pos (Bracket.mem_positions_of_dest h.wired hd),
      if_neg (by simp), add_zero]

/-- **The flow through a set of matches.** With nothing owed, the teams on the sides of the
matches `Q` are those of its first-round matches and those sent into it along the links. -/
theorem sum_sides (h : Routed b []) {Q : Finset Pos} (hQ : Q ⊆ b.positions) :
    ∑ q ∈ Q, (b.game q).sides = ∑ q ∈ Q.filter (·.round = 0), (b.game q).sides +
      ∑ p ∈ b.positions, ∑ q ∈ Q, (b.sent p .next q + b.sent p .loserNext q) := by
  rw [← Finset.sum_filter_add_sum_filter_not Q (·.round = 0)]
  congr 1
  calc ∑ q ∈ Q.filter (¬·.round = 0), (b.game q).sides
      = ∑ q ∈ Q.filter (¬·.round = 0), b.inflow q := Finset.sum_congr rfl fun q hq => by
        rw [Finset.mem_filter] at hq
        simpa using h.balanced q (hQ hq.1) (Nat.pos_of_ne_zero hq.2)
    _ = ∑ p ∈ b.positions, ∑ q ∈ Q.filter (¬·.round = 0),
          (b.sent p .next q + b.sent p .loserNext q) := by
        simp only [Bracket.inflow]
        exact Finset.sum_comm
    _ = ∑ p ∈ b.positions, ∑ q ∈ Q, (b.sent p .next q + b.sent p .loserNext q) :=
        Finset.sum_congr rfl fun p hp => Finset.sum_filter_of_ne fun q _ hne h0 => by
          -- nothing is sent into the first round
          have hz : ∀ k, b.sent p k q = 0 := fun k => by
            by_contra hk
            have := Bracket.round_lt_of_dest h.wired hp (Bracket.dest_of_sent_ne_zero hk)
            omega
          exact hne (by rw [hz, hz, add_zero])

/-- **Every team of the first round leaves the draw once.** When every match is completed, the
teams that leave along a link that leads nowhere, the winners of matches with no next match
and the losers of matches with no losers' match, are the teams of the first round. -/
theorem exits_eq (h : Routed b []) (hall : ∀ q ∈ b.positions, (b.game q).isCompleted = true) :
    ∑ p ∈ b.positions, ((if b.dest p .next = none then {(b.game p).winner} else 0) +
      (if b.dest p .loserNext = none then {(b.game p).loser} else 0)) = b.firstSides := by
  have hflow := h.sum_sides (Finset.Subset.refl b.positions)
  -- the sides of a match are what it sends on and what leaves the draw
  have hsides : ∀ p ∈ b.positions, (b.game p).sides =
      ∑ q ∈ b.positions, (b.sent p .next q + b.sent p .loserNext q) +
        ((if b.dest p .next = none then {(b.game p).winner} else 0) +
          (if b.dest p .loserNext = none then {(b.game p).loser} else 0)) := fun p hp => by
    have e1 := h.sum_sent_add_exit hp (hall p hp) .next
    have e2 := h.sum_sent_add_exit hp (hall p hp) .loserNext
    simp only [Match.mover] at e1 e2
    rw [Match.sides_of_decided (h.decided p hp (hall p hp) (by simp)), Finset.sum_add_distrib,
      add_add_add_comm, e1, e2]
  rw [Finset.sum_congr rfl hsides, Finset.sum_add_distrib, add_comm] at hflow
  exact add_right_cancel hflow

/-- What a completed match sends into the winners lane: its winner, unless it is the final of
the lane or lies beyond it, and never its loser. -/
theorem sum_sent_winnersLane (h : Routed b []) (hL : b.WinnersLane R) (hp : p ∈ b.positions)
    (hc : (b.game p).isCompleted = true) (k : Link) :
    ∑ q ∈ b.positions.filter (·.round < R), b.sent p k q =
      if k = .next ∧ p.round + 1 < R then {(b.game p).mover k} else 0 := by
  have hinto := hL.into p hp k
  cases hd : b.dest p k with
  | none =>
    rw [Bracket.sum_sent_of_dest_none hd, if_neg]
    rw [← hinto]
    rintro ⟨q, hq, -⟩
    rw [hd] at hq
    cases hq
  | some q₀ =>
    rw [h.sum_sent_of_dest hp hc hd]
    have hmem : q₀ ∈ b.positions.filter (·.round < R) ↔ k = .next ∧ p.round + 1 < R := by
      rw [Finset.mem_filter, ← hinto]
      exact ⟨fun hq => ⟨q₀, hd, hq.2⟩, fun ⟨q, hq, hr⟩ => by
        rw [hd, Option.some.injEq] at hq
        subst hq
        exact ⟨Bracket.mem_positions_of_dest h.wired hd, hr⟩⟩
    by_cases hk : k = .next ∧ p.round + 1 < R
    · rw [if_pos (hmem.2 hk), if_pos hk]
    · rw [if_neg (fun hq => hk (hmem.1 hq)), if_neg hk]

/-- **Every team of the first round is beaten once in the winners lane, but the winner of its
final.** When every match is completed, the losers of the winners lane and the winner of its
final are the teams of the first round. -/
theorem winnersLane_exits (h : Routed b []) (hL : b.WinnersLane R)
    (hall : ∀ q ∈ b.positions, (b.game q).isCompleted = true) :
    ∑ q ∈ b.positions.filter (·.round < R), {(b.game q).loser} +
      {(b.game ⟨R - 1, 0⟩).winner} = b.firstSides := by
  have hR := hL.one_le
  have hflow := h.sum_sides (Finset.filter_subset (·.round < R) b.positions)
  -- the lane holds the first round
  have hfirst : (b.positions.filter (·.round < R)).filter (·.round = 0) =
      b.positions.filter (·.round = 0) :=
    Bracket.filter_lane_filter fun q hq => by omega
  -- what the draw sends into the lane is the winners of its matches before the final
  have hsent : ∑ p ∈ b.positions, ∑ q ∈ b.positions.filter (·.round < R),
      (b.sent p .next q + b.sent p .loserNext q) =
        ∑ p ∈ b.positions.filter (·.round + 1 < R), {(b.game p).winner} := by
    rw [Finset.sum_filter]
    refine Finset.sum_congr rfl fun p hp => ?_
    rw [Finset.sum_add_distrib, h.sum_sent_winnersLane hL hp (hall p hp) .next,
      h.sum_sent_winnersLane hL hp (hall p hp) .loserNext]
    simp only [true_and, reduceCtorEq, false_and, if_false, add_zero]
    rfl
  -- the winners of the lane are those of the matches before the final, and the final's
  have hwin : ∑ q ∈ b.positions.filter (·.round < R), ({(b.game q).winner} : Multiset Value) =
      ∑ p ∈ b.positions.filter (·.round + 1 < R), {(b.game p).winner} +
        {(b.game ⟨R - 1, 0⟩).winner} := by
    rw [← Finset.sum_filter_add_sum_filter_not _ (·.round + 1 < R)]
    have hbefore : (b.positions.filter (·.round < R)).filter (·.round + 1 < R) =
        b.positions.filter (·.round + 1 < R) :=
      Bracket.filter_lane_filter fun q hq => by omega
    have hlast : (b.positions.filter (·.round < R)).filter (¬·.round + 1 < R) =
        {⟨R - 1, 0⟩} := by
      ext q
      simp only [Finset.mem_filter, Finset.mem_singleton]
      constructor
      · exact fun hq => hL.final_only q hq.1.1 (by omega)
      · rintro rfl
        exact ⟨⟨hL.final_mem, by dsimp only; omega⟩, by dsimp only; omega⟩
    rw [hbefore, hlast, Finset.sum_singleton]
  have hsides : ∀ q ∈ b.positions.filter (·.round < R),
      (b.game q).sides = {(b.game q).winner} + {(b.game q).loser} := fun q hq =>
    Match.sides_of_decided (h.decided q (Finset.mem_filter.1 hq).1
      (hall q (Finset.mem_filter.1 hq).1) (by simp))
  rw [Finset.sum_congr rfl hsides, Finset.sum_add_distrib, hfirst, hsent, hwin] at hflow
  refine add_left_cancel (a := (∑ p ∈ b.positions.filter (·.round + 1 < R),
    {(b.game p).winner} : Multiset Value)) ?_
  calc _ = ∑ p ∈ b.positions.filter (·.round + 1 < R), {(b.game p).winner} +
        {(b.game ⟨R - 1, 0⟩).winner} +
          ∑ q ∈ b.positions.filter (·.round < R), {(b.game q).loser} := by ac_rfl
    _ = _ := hflow
    _ = _ := add_comm _ _

/-- **In double elimination every team of the first round is beaten once beyond the winners
lane, but the champion.** When every match is completed, the losers of the matches past the
winners lane and the winner of the grand final are the teams of the first round. -/
theorem grandFinal_exits (h : Routed b []) (hG : b.GrandFinal R)
    (hall : ∀ q ∈ b.positions, (b.game q).isCompleted = true) :
    ∑ q ∈ b.positions.filter (¬·.round < R), {(b.game q).loser} +
      {(b.game ⟨3 * R - 2, 0⟩).winner} = b.firstSides := by
  -- the only winner that leaves is the champion
  have hlast : b.positions.filter (fun p => b.dest p .next = none) = {⟨3 * R - 2, 0⟩} := by
    ext q
    simp only [Finset.mem_filter, Finset.mem_singleton]
    exact ⟨fun hq => (hG.next_none q hq.1).1 hq.2,
      fun hq => hq ▸ ⟨hG.mem, (hG.next_none _ hG.mem).2 rfl⟩⟩
  -- the losers that leave are those past the winners lane
  have hbeyond : b.positions.filter (fun p => b.dest p .loserNext = none) =
      b.positions.filter (¬·.round < R) :=
    Finset.filter_congr fun p hp => by rw [hG.loser_none p hp, not_lt]
  rw [← h.exits_eq hall, Finset.sum_add_distrib, ← Finset.sum_filter, ← Finset.sum_filter, hlast,
    hbeyond, Finset.sum_singleton, add_comm]

end Routed

/-- A match decided between two teams of `T` is won by one of them. -/
theorem Match.Decided.winner_mem {m : Match} {T : List Value} (hd : m.Decided)
    (h1 : m.team1 ∈ T) (h2 : m.team2 ∈ T) : m.winner ∈ T := by
  rcases hd.2.2 with ⟨hw, -⟩ | ⟨hw, -⟩ <;> rw [hw]
  · exact h1
  · exact h2

/-- A knockout draw the entrants `ids` have played out: routed with nothing owed and fair to
them, every match completed, and a first round of the entrants, each once, two to a match or
one against the bye. -/
structure PlayedOut (ids : List String) (c : Bracket) : Prop where
  entrants : Entrants ids
  routed : Routed c []
  fair : Fair (ids.map .str) c []
  completed : ∀ q ∈ c.positions, (c.game q).isCompleted = true
  first : ∀ q ∈ c.positions, q.round = 0 → (c.game q).team1 ∈ ids.map .str ∧
    ((c.game q).team2 ∈ ids.map .str ∨ (c.game q).team2 = .str byeTeam)
  placed : c.firstSides.filter (fun v => !v.eqv (.str byeTeam)) = ↑(ids.map Value.str)

namespace PlayedOut

variable {ids : List String} {c : Bracket} {q : Pos} {R : Nat} {t : Value}

theorem decided (h : PlayedOut ids c) (hq : q ∈ c.positions) : (c.game q).Decided :=
  h.routed.decided q hq (h.completed q hq) (by simp)

/-- The bye lost every match passed against it. -/
theorem loser_of_auto (h : PlayedOut ids c) (hq : q ∈ c.positions)
    (ha : (c.game q).autoAdvance.truthy = true) : (c.game q).loser = .str byeTeam :=
  h.fair.byeLost q hq (h.completed q hq) (by simp) ha

/-- A match played on the field was between two entrants. -/
theorem entrants_of_played (h : PlayedOut ids c) (hq : q ∈ c.positions)
    (ha : (c.game q).autoAdvance.truthy = false) :
    (c.game q).team1 ∈ ids.map .str ∧ (c.game q).team2 ∈ ids.map .str :=
  h.fair.played q hq (.inl (h.completed q hq)) ha

/-- The winner of a match is an entrant, unless it is the bye. -/
theorem winner_mem (h : PlayedOut ids c) (hq : q ∈ c.positions)
    (hne : (c.game q).winner ≠ .str byeTeam) : (c.game q).winner ∈ ids.map .str := by
  obtain ⟨n1, n2, hwl⟩ := h.decided hq
  obtain ⟨s, hs, hn⟩ : ∃ s, (c.game q).winner = (c.game q).onSide s ∧
      (c.game q).onSide s ≠ .null := by
    rcases hwl with ⟨hw, -⟩ | ⟨hw, -⟩
    · exact ⟨.first, hw, n1⟩
    · exact ⟨.second, hw, n2⟩
  rcases h.fair.entries q hq s with hm | hm | hm
  · exact hs ▸ hm
  · exact absurd (hs.trans hm) hne
  · exact absurd hm hn

open scoped Classical in
/-- Every entrant stands once in the first round. -/
theorem count_firstSides (h : PlayedOut ids c) (ht : t ∈ ids.map .str) :
    c.firstSides.count t = 1 := by
  have hb : t.eqv (.str byeTeam) = false := by
    obtain ⟨s, -, rfl⟩ := List.mem_map.1 ht
    exact Bool.eq_false_iff.2 fun he =>
      h.entrants.ne_bye_of_mem ht (Value.eqv_str_iff.1 he).symm
  rw [← Multiset.count_filter_of_pos (p := fun v => (!v.eqv (.str byeTeam)) = true)
    (by rw [hb]; rfl), h.placed, Multiset.coe_count]
  exact List.count_eq_one_of_mem (h.entrants.nodup.map fun _ _ he => Value.str.inj he) ht

open scoped Classical in
/-- The bye loses each first-round match it stands in. -/
theorem count_bye_le (h : PlayedOut ids c) :
    c.firstSides.count (.str byeTeam) ≤
      (∑ q ∈ c.positions.filter (·.round = 0), ({(c.game q).loser} : Multiset Value)).count
        (.str byeTeam) := by
  rw [Bracket.firstSides, Multiset.count_sum', Multiset.count_sum']
  refine Finset.sum_le_sum fun q hq => ?_
  obtain ⟨hqp, h0⟩ := Finset.mem_filter.1 hq
  have hd := h.decided hqp
  -- the winner of a first-round match is an entrant
  have hw : (c.game q).winner ≠ .str byeTeam := by
    rcases h.first q hqp h0 with ⟨m1, m2 | m2⟩
    · exact h.entrants.ne_bye_of_mem (hd.winner_mem m1 m2)
    · -- against the bye the match was passed, and the bye lost it
      have ha : (c.game q).autoAdvance.truthy = true := by
        by_contra hna
        have hp := (h.entrants_of_played hqp (Bool.eq_false_iff.2 hna)).2
        rw [m2] at hp
        exact h.entrants.bye_not_mem hp
      have hl := h.loser_of_auto hqp ha
      rcases hd.2.2 with ⟨hw, -⟩ | ⟨-, hl'⟩
      · rw [hw]
        exact h.entrants.ne_bye_of_mem m1
      · rw [← hl', hl] at m1
        exact absurd m1 h.entrants.bye_not_mem
  rw [Match.sides_of_decided hd, Multiset.count_add,
    Multiset.count_singleton _ (c.game q).winner, if_neg fun he => hw he.symm, zero_add]

open scoped Classical in
/-- The losses of an entrant in the matches `Q` are how often it is among their losers: a
match an entrant lost was played on the field, as the bye loses every match passed against
it. -/
theorem lossesIn_eq (h : PlayedOut ids c) {Q : Finset Pos} (hQ : Q ⊆ c.positions)
    (ht : t ∈ ids.map .str) :
    c.lossesIn Q t = (∑ q ∈ Q, ({(c.game q).loser} : Multiset Value)).count t := by
  simp only [Multiset.count_sum', Multiset.count_singleton, Finset.sum_boole, Nat.cast_id,
    Bracket.lossesIn]
  refine congrArg Finset.card (Finset.filter_congr fun q hq => ?_)
  have hqp := hQ hq
  obtain ⟨-, -, hwl⟩ := h.decided hqp
  obtain ⟨t1, t2⟩ := h.routed.textual q hqp
  have hlt : (c.game q).loser.Textual := by
    rcases hwl with ⟨-, hl⟩ | ⟨-, hl⟩ <;> rw [hl] <;> assumption
  simp only [h.completed q hqp, Bool.true_and, Bool.and_eq_true, Bool.not_eq_eq_eq_not,
    Bool.not_true, hlt.eqv_iff]
  constructor
  · exact fun hh => hh.2
  · intro he
    refine ⟨?_, he⟩
    cases ha : (c.game q).autoAdvance.truthy
    · rfl
    · exact absurd (he.trans (h.loser_of_auto hqp ha)) (h.entrants.ne_bye_of_mem ht)

/-- **The winners lane is won by an entrant.** The bye loses each first-round match it stands
in, and every team of the first round but the winner of the lane's final is beaten once in the
lane; so the bye is not that winner. -/
theorem winner_final_mem (h : PlayedOut ids c) (hL : c.WinnersLane R) :
    (c.game ⟨R - 1, 0⟩).winner ∈ ids.map .str := by
  classical
  refine h.winner_mem hL.final_mem fun hbye => ?_
  have hexit := congrArg (Multiset.count (Value.str byeTeam))
    (h.routed.winnersLane_exits hL h.completed)
  rw [Multiset.count_add, hbye, Multiset.count_singleton_self] at hexit
  have hsub : (∑ q ∈ c.positions.filter (·.round = 0),
      ({(c.game q).loser} : Multiset Value)).count (.str byeTeam) ≤
      (∑ q ∈ c.positions.filter (·.round < R),
        ({(c.game q).loser} : Multiset Value)).count (.str byeTeam) := by
    rw [Multiset.count_sum', Multiset.count_sum']
    refine Finset.sum_le_sum_of_subset fun q hq => ?_
    have hR := hL.one_le
    simp only [Finset.mem_filter] at hq ⊢
    exact ⟨hq.1, by omega⟩
  have hle := h.count_bye_le
  omega

open scoped Classical in
/-- **Single elimination: one loss in the winners lane for every entrant but the winner of its
final.** -/
theorem lane_losses (h : PlayedOut ids c) (hL : c.WinnersLane R) (ht : t ∈ ids.map .str) :
    c.lossesIn (c.positions.filter (·.round < R)) t =
      if t = (c.game ⟨R - 1, 0⟩).winner then 0 else 1 := by
  classical
  have hexit := congrArg (Multiset.count t) (h.routed.winnersLane_exits hL h.completed)
  rw [Multiset.count_add, Multiset.count_singleton, h.count_firstSides ht,
    ← h.lossesIn_eq (Finset.filter_subset _ _) ht] at hexit
  split_ifs at hexit ⊢ <;> omega

/-- The winner of the winners lane plays the grand final. -/
theorem final_winner_in_grandFinal (h : PlayedOut ids c) (hL : c.WinnersLane R)
    (hG : c.GrandFinal R) :
    (c.game ⟨R - 1, 0⟩).winner = (c.game ⟨3 * R - 2, 0⟩).winner ∨
      (c.game ⟨R - 1, 0⟩).winner = (c.game ⟨3 * R - 2, 0⟩).loser := by
  have hm := h.routed.mover_mem_sides hL.final_mem (h.completed _ hL.final_mem) hG.after
  rwa [Match.sides_of_decided (h.decided hG.mem), Multiset.mem_add, Multiset.mem_singleton,
    Multiset.mem_singleton] at hm

/-- **Double elimination is won by an entrant.** Played on the field, the grand final is won by
one of two entrants; passed against the bye, by the winner of the winners lane, an entrant. -/
theorem grand_winner_mem (h : PlayedOut ids c) (hL : c.WinnersLane R) (hG : c.GrandFinal R) :
    (c.game ⟨3 * R - 2, 0⟩).winner ∈ ids.map .str := by
  refine h.winner_mem hG.mem fun hbye => ?_
  have hW := h.winner_final_mem hL
  cases ha : (c.game ⟨3 * R - 2, 0⟩).autoAdvance.truthy
  · have hp := h.entrants_of_played hG.mem ha
    exact h.entrants.ne_bye_of_mem ((h.decided hG.mem).winner_mem hp.1 hp.2) hbye
  · have hl := h.loser_of_auto hG.mem ha
    rcases h.final_winner_in_grandFinal hL hG with he | he
    · exact h.entrants.ne_bye_of_mem hW (he.trans hbye)
    · exact h.entrants.ne_bye_of_mem hW (he.trans hl)

open scoped Classical in
/-- **Double elimination: two losses for every entrant but the finalists.** An entrant is
beaten once in the winners lane unless it wins it, and once past it unless it is the champion;
the winner of the winners lane plays the grand final. -/
theorem double_losses (h : PlayedOut ids c) (hL : c.WinnersLane R) (hG : c.GrandFinal R)
    (ht : t ∈ ids.map .str) :
    c.lossesIn c.positions t =
      if t = (c.game ⟨3 * R - 2, 0⟩).winner then
        (if t = (c.game ⟨R - 1, 0⟩).winner then 0 else 1)
      else if t = (c.game ⟨3 * R - 2, 0⟩).loser ∧ t = (c.game ⟨R - 1, 0⟩).winner then 1
      else 2 := by
  classical
  have hlane := congrArg (Multiset.count t) (h.routed.winnersLane_exits hL h.completed)
  have hrest := congrArg (Multiset.count t) (h.routed.grandFinal_exits hG h.completed)
  rw [Multiset.count_add, Multiset.count_singleton, h.count_firstSides ht,
    ← h.lossesIn_eq (Finset.filter_subset _ _) ht] at hlane hrest
  -- the losses split at the end of the winners lane
  have hsplit : c.lossesIn c.positions t =
      c.lossesIn (c.positions.filter (·.round < R)) t +
        c.lossesIn (c.positions.filter (¬·.round < R)) t := by
    rw [h.lossesIn_eq (Finset.Subset.refl _) ht, h.lossesIn_eq (Finset.filter_subset _ _) ht,
      h.lossesIn_eq (Finset.filter_subset _ _) ht, ← Multiset.count_add,
      Finset.sum_filter_add_sum_filter_not]
  rw [hsplit]
  by_cases hC : t = (c.game ⟨3 * R - 2, 0⟩).winner
  · rw [if_pos hC] at hrest ⊢
    split_ifs at hlane ⊢ <;> omega
  · rw [if_neg hC] at hrest ⊢
    by_cases hW : t = (c.game ⟨R - 1, 0⟩).winner
    · -- the winner of the winners lane lost the grand final
      have hLg : t = (c.game ⟨3 * R - 2, 0⟩).loser := by
        rcases h.final_winner_in_grandFinal hL hG with he | he
        · exact absurd (hW.trans he) hC
        · exact hW.trans he
      rw [if_pos hW] at hlane
      rw [if_pos ⟨hLg, hW⟩]
      omega
    · rw [if_neg hW] at hlane
      rw [if_neg fun hh => hW hh.2]
      omega

end PlayedOut

namespace Bracket.Plays

variable {b₀ c : Bracket} {D : Pos → Option Result} {ids : List String}

/-- A fair draw that plays results on a placed draw whose first round holds the entrants is
played out once every match is completed. -/
theorem playedOut (h : Plays b₀ D c []) (hE : Entrants ids) (hF : Fair (ids.map .str) c [])
    (hfirst : FirstRoundOf (ids.map .str) b₀)
    (hall : ∀ q ∈ c.positions, (c.game q).isCompleted = true) : PlayedOut ids c := by
  have hpos := positions_eq_of_frame h.frame_eq
  -- the first round keeps the teams placed into it
  have hsides : c.firstSides = b₀.firstSides := by
    unfold firstSides
    rw [hpos]
    refine Finset.sum_congr rfl fun q hq => ?_
    obtain ⟨hq, h0⟩ := Finset.mem_filter.1 hq
    obtain ⟨e1, e2⟩ := h.first q (hpos ▸ hq) h0
    simp only [Match.sides, e1, e2]
  refine ⟨hE, h.slotted.routed, hF, hall, fun q hq h0 => ?_, hsides ▸ hfirst.placed⟩
  obtain ⟨r, i⟩ := q
  dsimp only at h0
  subst h0
  obtain ⟨e1, e2⟩ := h.first _ hq rfl
  rw [e1, e2]
  rcases hfirst.paired i (hpos ▸ hq) with ⟨m1, m2⟩ | ⟨m1, m2, -⟩
  · exact ⟨m1, .inl m2⟩
  · exact ⟨m1, .inr m2⟩

end Bracket.Plays

theorem Generated.of_build {fmt : Format} {plan : Plan} {n : Nat} {b : Bracket}
    (hfmt : fmt = .singleElimination ∨ fmt = .doubleElimination) (hteams : plan.teams = n)
    (hb : Generate.build fmt plan = .ok b) : Generated n b := by
  rcases hfmt with rfl | rfl
  · have hb' : Generate.singleElimination (.int plan.teams) plan.thirdPlace
        (Value.ofOptStr plan.seed) = .ok b := hb
    rw [hteams] at hb'
    exact .inl ⟨_, _, hb'⟩
  · have hb' : Generate.doubleElimination (.int plan.teams) (Value.ofOptStr plan.seed) = .ok b :=
      hb
    rw [hteams] at hb'
    exact .inr ⟨_, hb'⟩

/-- Entrants that fit a fresh draw are placed, the bye pass clearing its first round. -/
theorem Bracket.Fresh.exists_placeTeams {b : Bracket} {n w : Nat} {ids : List String}
    (hF : b.Fresh n w) (hE : Entrants ids) (hlen : ids.length = n) (hn : n ≤ 2 * w) :
    ∃ c, Step.exec (Step.placeTeams (ids.map .str)) b = (.ok (), c) ∧
      Clearing (b.seatFirst (ids.map .str)) [] c [] := by
  obtain ⟨c, hpass, hcl⟩ := Clearing.resolveByes (hF.routed_seatFirst hE.nodup hE.valid hlen hn)
    (hF.open_seatFirst _) (hF.team1_seatFirst_ne hE.valid)
  exact ⟨c, hF.exec_placeTeams_of_le (by rw [List.length_map, hlen]) hn hpass
    hcl.routed.wired.fixtures_eq, hcl⟩

/-- **A placed knockout draw.** A single or double elimination generated for distinct entrants,
with them placed, has nothing played yet, is fair to them, has them in its first round, and
keeps the shape it was generated with. -/
theorem Bracket.Plays.placed_knockout {ids : List String} {fmt : Format} {plan : Plan}
    {b b₀ : Bracket} (hE : Entrants ids)
    (hfmt : fmt = .singleElimination ∨ fmt = .doubleElimination)
    (hteams : plan.teams = ids.length) (hb : Generate.build fmt plan = .ok b)
    (hplace : Step.exec (Step.placeTeams (ids.map .str)) b = (.ok (), b₀)) :
    Plays b₀ (fun _ => none) b₀ [] ∧ Fair (ids.map .str) b₀ [] ∧
      FirstRoundOf (ids.map .str) b₀ ∧
      b₀.Knockout fmt plan.thirdPlace.truthy (Shape.ceilLog2 ids.length) := by
  have hn := hE.two_le
  have hF := (Generated.of_build hfmt hteams hb).fresh hn
  -- the placement went through, so the entrants fit the first round
  have hfit : ids.length ≤ 2 * (2 ^ Shape.ceilLog2 ids.length / 2) := by
    by_contra hgt
    obtain ⟨e, he⟩ := hF.exec_placeTeams_of_gt (List.length_map _) (by omega)
    rw [he] at hplace
    cases hplace
  have hwn : 2 ^ Shape.ceilLog2 ids.length / 2 ≤ ids.length := by
    have := Shape.pow_ceilLog2_le hn
    omega
  -- the placed draw: nothing played, fair, its first round the entrants, its shape generated
  have h₀ : Plays b₀ (fun _ => none) b₀ [] := by
    have h := Plays.placed hE hfmt hteams hb
    rwa [hplace] at h
  have hF₀ := hF.fair_placeTeams hE rfl hfit
  rw [hplace] at hF₀
  have hfirst : FirstRoundOf (ids.map .str) b₀ := by
    obtain ⟨c, hpass, hcl⟩ := hF.exists_placeTeams hE rfl hfit
    rw [hpass, Prod.mk.injEq] at hplace
    obtain ⟨-, rfl⟩ := hplace
    exact hF.firstRoundOf_clearing hE.valid rfl hwn hfit hcl
  have hskel := hF.routed_placeTeams hE.nodup hE.valid rfl
  rw [hplace] at hskel
  exact ⟨h₀, hF₀.1, hfirst, (Generate.knockout_build hfmt hn hteams hb).congr
    (positions_eq_of_frame hF₀.2)
    (dest_eq_of_skeleton hF.wired hskel.1.wired hskel.2)
    (lane_eq_of_frame hF₀.2)⟩

open scoped Classical in
/-- **A knockout draw plays out to the end.** In a single or double elimination generated for
distinct entrants, with them placed, recording a decisive result on a playable match never
fails and completes the match; a run of such requests is no longer than the number of matches;
and once no match is playable, every match is completed. Then single elimination is won by an
entrant, has its match for third place when one was asked for and the draw has semi-finals, and
every entrant but the winner was beaten exactly once in the winners lane. Double elimination is
won by an entrant, and every entrant was beaten twice, but the champion, beaten once unless it
won the winners lane, and the winner of the winners lane who lost the grand final, beaten
once. -/
theorem knockout_plays_to_the_end {ids : List String} {fmt : Format} {plan : Plan}
    {b b₀ : Bracket} (hE : Entrants ids)
    (hfmt : fmt = .singleElimination ∨ fmt = .doubleElimination)
    (hteams : plan.teams = ids.length) (hb : Generate.build fmt plan = .ok b)
    (hplace : Step.exec (Step.placeTeams (ids.map .str)) b = (.ok (), b₀)) :
    (∀ cs c p r, PlayOut (ids.map .str) b₀ cs c → c.Playable (ids.map .str) p →
      r.Decisive (c.game p) →
      ∃ m, (Step.exec (Step.record (c.game p).id r) c).1 = .ok m ∧ m.isCompleted = true) ∧
    (∀ cs c, PlayOut (ids.map .str) b₀ cs c → cs.length ≤ b₀.knockoutCount) ∧
    ∀ cs c, PlayOut (ids.map .str) b₀ cs c → (∀ p, ¬c.Playable (ids.map .str) p) →
      (∀ q ∈ c.positions, (c.game q).isCompleted = true) ∧
      (fmt = .singleElimination →
        (c.game (Pos.winnersFinal ids.length)).winner ∈ ids.map .str ∧
        (plan.thirdPlace.truthy = true → 2 ≤ Shape.ceilLog2 ids.length →
          Pos.thirdPlace ids.length ∈ c.positions) ∧
        ∀ t ∈ ids.map .str, c.lossesIn c.winnersLane t =
          if t = (c.game (Pos.winnersFinal ids.length)).winner then 0 else 1) ∧
      (fmt = .doubleElimination →
        (c.game (Pos.grandFinal ids.length)).winner ∈ ids.map .str ∧
        ∀ t ∈ ids.map .str, c.lossesIn c.positions t =
          if t = (c.game (Pos.grandFinal ids.length)).winner then
            (if t = (c.game (Pos.winnersFinal ids.length)).winner then 0 else 1)
          else if t = (c.game (Pos.grandFinal ids.length)).loser ∧
            t = (c.game (Pos.winnersFinal ids.length)).winner then 1
          else 2) := by
  obtain ⟨h₀, hF₀, hfirst, hK⟩ := Bracket.Plays.placed_knockout hE hfmt hteams hb hplace
  refine ⟨fun cs c p r hrun hp hd => ?_, fun cs c hrun => hrun.length_le hE h₀ hF₀,
    fun cs c hrun hstuck => ?_⟩
  · obtain ⟨D, hP, hFc⟩ := hrun.plays hE h₀ hF₀
    obtain ⟨c', hstep, hdone, -⟩ := hP.record_playable hE hFc hp hd
    exact ⟨_, by rw [hstep], hdone⟩
  · obtain ⟨D, hP, hFc⟩ := hrun.plays hE h₀ hF₀
    -- the run keeps the places, links and lanes of the placed draw
    have hKc := hK.congr (Bracket.positions_eq_of_frame hP.frame_eq) (fun p k => (hP.links p k).1)
      (Bracket.lane_eq_of_frame hP.frame_eq)
    have hall := hP.completed_of_stuck hFc hfirst hKc.feeders hstuck
    have hout := hP.playedOut hE hFc hfirst hall
    refine ⟨hall, fun hse => ⟨hout.winner_final_mem hKc.lane,
      fun ht h2 => hKc.third_mem hse ht h2, fun t ht => ?_⟩,
      fun hde => ⟨hout.grand_winner_mem hKc.lane (hKc.grand hde),
        fun t ht => hout.double_losses hKc.lane (hKc.grand hde) ht⟩⟩
    rw [hKc.lane.winnersLane_eq]
    exact hout.lane_losses hKc.lane ht

/-- Two entrants placed into a single elimination play it out within its matches. -/
theorem two_entrants_play_out : Entrants ["ana", "bo"] ∧ ∃ b b₀,
    Generate.build .singleElimination { teams := 2 } = .ok b ∧
    Step.exec (Step.placeTeams (["ana", "bo"].map .str)) b = (.ok (), b₀) ∧
    ∀ cs c, PlayOut (["ana", "bo"].map .str) b₀ cs c → cs.length ≤ b₀.knockoutCount := by
  have hE : Entrants ["ana", "bo"] := ⟨by decide, by decide, by decide⟩
  have hk : Shape.ceilLog2 2 = 1 :=
    Shape.ceilLog2_eq_of_bounds (by decide) (by decide) (by decide) (by decide)
  obtain ⟨b, hb⟩ : ∃ b, Generate.build .singleElimination { teams := 2 } = .ok b :=
    ⟨_, Generate.singleElimination_int (n := 2) (by decide) _ _⟩
  have hF := (Generated.of_build (n := 2) (.inl rfl) rfl hb).fresh le_rfl
  rw [hk] at hF
  obtain ⟨b₀, hplace, -⟩ := hF.exists_placeTeams hE rfl (by decide)
  exact ⟨hE, b, b₀, hb, hplace, (knockout_plays_to_the_end hE (.inl rfl) rfl hb hplace).2.1⟩

/-- An empty entrant strands the final. In a single elimination for three teams with the
entrants `""`, `b` and `c`, the empty entrant wins its bye but is not sent on; once the other
semi-final is played no match is playable, and the final stays open with an empty side. -/
theorem empty_entrant_strands_the_final : ∃ b b₀ c,
    Generate.build .singleElimination { teams := 3 } = .ok b ∧
    Step.exec (Step.placeTeams (["", "b", "c"].map .str)) b = (.ok (), b₀) ∧
    PlayOut (["", "b", "c"].map .str) b₀
      [(.str "match_2", { score1 := .int 2, score2 := .int 1 })] c ∧
    (∀ p, ¬c.Playable (["", "b", "c"].map .str) p) ∧
    (c.game ⟨1, 0⟩).isCompleted = false ∧ (c.game ⟨1, 0⟩).team1 = .null := by
  have hk : Shape.ceilLog2 3 = 2 :=
    Shape.ceilLog2_eq_of_bounds (by decide) (by decide) (by decide) (by decide)
  have hb : Generate.build .singleElimination { teams := 3 } =
      .ok (Generate.singleDraw 2 1 false (.bool false) .null) := by
    show Generate.singleElimination (.int ((3 : Nat) : Int)) (.bool false) (Value.ofOptStr none) = _
    rw [Generate.singleElimination_int (by decide), Int.toNat_natCast, hk]
    rfl
  have hok : (Step.exec (Step.placeTeams (["", "b", "c"].map .str))
      (Generate.singleDraw 2 1 false (.bool false) .null)).1.toBool = true := by decide
  have hplace := Step.exec_eq_ok_of_toBool hok
  set b₀ := (Step.exec (Step.placeTeams (["", "b", "c"].map .str))
    (Generate.singleDraw 2 1 false (.bool false) .null)).2
  set r : Result := { score1 := .int 2, score2 := .int 1 }
  -- the open semi-final holds `b` and `c`
  have hid : (b₀.game ⟨0, 1⟩).id = .str "match_2" := rfl
  have hplay : b₀.Playable (["", "b", "c"].map .str) ⟨0, 1⟩ := by
    refine ⟨by decide, by decide, ?_, ?_⟩
    · rw [show (b₀.game ⟨0, 1⟩).team1 = .str "b" from rfl]
      simp
    · rw [show (b₀.game ⟨0, 1⟩).team2 = .str "c" from rfl]
      simp
  have hd : r.Decisive (b₀.game ⟨0, 1⟩) := ⟨rfl, 2, 1, rfl, rfl, .inr (.inr ⟨rfl, by decide⟩)⟩
  refine ⟨_, b₀, _, hb, hplace, hid ▸ PlayOut.play hplay hd (.done _), ?_, by decide, rfl⟩
  -- both semi-finals are completed, and the final has an empty side
  rintro p ⟨hp, hopen, h1, -⟩
  have hpos : (Step.exec (Step.record (.str "match_2") r) b₀).2.positions =
      {⟨0, 0⟩, ⟨0, 1⟩, ⟨1, 0⟩} := by decide
  rw [hpos] at hp
  simp only [Finset.mem_insert, Finset.mem_singleton] at hp
  rcases hp with rfl | rfl | rfl
  · exact absurd hopen (by decide)
  · exact absurd hopen (by decide)
  · rw [show ((Step.exec (Step.record (.str "match_2") r) b₀).2.game ⟨1, 0⟩).team1 = .null
      from rfl] at h1
    simp at h1

end TournamentDraw
