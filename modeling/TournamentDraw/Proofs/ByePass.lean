import TournamentDraw.Proofs.Rounds

/-!
# The bye pass over a seated first round

Once the teams are seated, `resolveByes` visits the knockout places in turn and decides each
match that faces the bye; the cascade of a decision seats its winner further on, where another
bye may be met. `Clearing` follows the pass by the places still to visit, in the manner of a
worklist invariant: every place already visited faces no bye, unless its decision is still
owed. Alongside, the first round keeps the teams it was seated with, and a first-round match is
only ever decided for its first team.

When the pass is over, no match faces the bye (`Clearing.byeWinner?_eq_none`), and a
first-round match of a seated team against the bye stands completed, won by that team
(`Clearing.bye_decided`). A draw where nothing faces the bye is left as it is
(`exec_resolveByes_of_settled`).
-/

namespace TournamentDraw

namespace Match

variable {m : Match}

/-- A match whose first team is a text other than the bye faces the bye only for that team. -/
theorem byeWinner?_eq_team1 (ht : m.team1.Textual) (hne : m.team1 ≠ .str byeTeam) {w : Value}
    (h : m.byeWinner? = some w) : w = m.team1 := by
  have hb : m.team1.eqv (.str byeTeam) = false := by
    cases h' : m.team1.eqv (.str byeTeam)
    · rfl
    · exact absurd (ht.eqv_iff.1 h').symm hne
  unfold byeWinner? at h
  simp only [hb, Bool.false_eq_true, if_false] at h
  split_ifs at h
  exact (Option.some.inj h).symm

/-- A match of a team against the bye that no longer faces the bye has been played. -/
theorem isCompleted_of_byeWinner?_eq_none (h1 : m.team1.isNull = false)
    (hb : m.team1.eqv (.str byeTeam) = false) (h2 : m.team2 = .str byeTeam)
    (h : m.byeWinner? = none) : m.isCompleted = true := by
  by_contra hc
  rw [Bool.not_eq_true] at hc
  have hbye : (Value.str byeTeam).eqv (.str byeTeam) = true := by simp [Value.eqv]
  have hnull : (Value.str byeTeam).isNull = false := rfl
  simp [byeWinner?, hc, h1, hb, h2, hbye, hnull] at h

theorem byeWinner?_decidedFor (w : Value) : (m.decidedFor w).byeWinner? = none := by
  simp [byeWinner?, decidedFor, isCompleted]

end Match

theorem Pending.decide_not_mem_seatsAfter {b : Bracket} {p q : Pos} {w w' : Value} :
    Pending.decide q w' ∉ b.seatsAfter p w := fun h => by
  have := Pending.mem_decisions_of_mem h
  rw [Bracket.decisions_seatsAfter] at this
  cases this

/-- The bye pass part way, over the draw `c₀` it started from, with the places `xs` still to
visit and the moves `ps` the cascade still owes. -/
structure Clearing (c₀ : Bracket) (xs : List (Pos × Match)) (b : Bracket) (ps : List Pending) :
    Prop where
  routed : Routed b ps
  skeleton_eq : b.skeleton = c₀.skeleton
  teams_eq : ∀ i, (b.game ⟨0, i⟩).team1 = (c₀.game ⟨0, i⟩).team1 ∧
    (b.game ⟨0, i⟩).team2 = (c₀.game ⟨0, i⟩).team2
  winner_eq : ∀ i, (b.game ⟨0, i⟩).isCompleted = true →
    (b.game ⟨0, i⟩).winner = (c₀.game ⟨0, i⟩).team1
  owed_eq : ∀ i w, Pending.decide ⟨0, i⟩ w ∈ ps → w = (c₀.game ⟨0, i⟩).team1
  visited : ∀ q ∈ b.positions, q ∉ xs.map Prod.fst →
    (b.game q).byeWinner? = none ∨ q ∈ Pending.decisions ps

namespace Clearing

open TournamentDraw.Bracket

variable {c₀ b : Bracket} {xs : List (Pos × Match)} {ps : List Pending} {p q : Pos}

/-- The pass starts with every place to visit. -/
theorem start (hR : Routed c₀ []) (hopen : ∀ i, (c₀.game ⟨0, i⟩).isCompleted = false) :
    Clearing c₀ c₀.knockoutPlaces c₀ [] where
  routed := hR
  skeleton_eq := rfl
  teams_eq _ := ⟨rfl, rfl⟩
  winner_eq i hc := by rw [hopen i] at hc; cases hc
  owed_eq _ _ h := by cases h
  visited q hq hx := absurd (List.mem_toFinset.1 hq) hx

theorem decide_step {w : Value} (h : Clearing c₀ xs b (.decide p w :: ps)) :
    p ∈ b.positions ∧ Clearing c₀ xs (b.decideAt p w) (b.seatsAfter p w ++ ps) := by
  obtain ⟨hp, hR⟩ := h.routed.decide_step
  refine ⟨hp, hR, by rw [skeleton_decideAt, h.skeleton_eq], fun i => ?_, fun i hc => ?_,
    fun i w' hw' => ?_, fun q hq hx => ?_⟩
  · rw [game_decideAt hp]
    split
    · next he => subst he; exact h.teams_eq i
    · exact h.teams_eq i
  · by_cases he : (⟨0, i⟩ : Pos) = p
    · subst he
      rw [game_decideAt hp, if_pos rfl]
      exact h.owed_eq i w List.mem_cons_self
    · rw [game_decideAt hp, if_neg he] at hc ⊢
      exact h.winner_eq i hc
  · rcases List.mem_append.1 hw' with hs | hs
    · exact absurd hs Pending.decide_not_mem_seatsAfter
    · exact h.owed_eq i w' (List.mem_cons_of_mem _ hs)
  · rw [positions_decideAt] at hq
    rw [game_decideAt hp]
    split
    · exact .inl (Match.byeWinner?_decidedFor w)
    · next hne =>
      rcases h.visited q hq hx with hn | hd
      · exact .inl hn
      · rw [Pending.decisions_cons_decide, List.mem_cons] at hd
        rw [Pending.decisions_append, decisions_seatsAfter, List.nil_append]
        exact .inr (hd.resolve_left hne)

/-- A team seated past the first round leaves the first round as it was; the match it lands in
settles, so it faces the bye only with its decision owed. -/
theorem seat_step {k : Link} {x : Value} (h : Clearing c₀ xs b (.seat p k x :: ps)) :
    p ∈ b.positions ∧ ∃ q s, b.dest p k = some q ∧
      (b.game q).freeSide? (b.preferred p q) = some s ∧
        Settles (Clearing c₀ xs) (b.seatAt q x s) q ps := by
  obtain ⟨hp, q, s, hq, hs, hset⟩ := h.routed.seat_step
  have hw := h.routed.wired
  have hqpos := mem_positions_of_dest hw hq
  have hr : 0 < q.round := Nat.lt_of_le_of_lt (Nat.zero_le _) (round_lt_of_dest hw hp hq)
  have hfirst : ∀ i, (⟨0, i⟩ : Pos) ≠ q := fun i he => by
    rw [← he] at hr
    exact absurd hr (by simp)
  have hseat : ∀ q', q' ≠ q → (b.seatAt q x s).game q' = b.game q' := fun q' hne => by
    rw [game_seatAt hqpos, if_neg hne]
  refine ⟨hp, q, s, hq, hs, ?_⟩
  unfold Settles at hset ⊢
  split
  · next w hbye =>
    rw [hbye] at hset
    have hmark : ∀ q', q' ≠ q → ((b.seatAt q x s).markAt q).game q' = b.game q' :=
      fun q' hne => by rw [game_markAt (by simpa using hqpos), if_neg hne, hseat q' hne]
    refine ⟨hset, by simp [h.skeleton_eq], fun i => ?_, fun i hc => ?_, fun i w' hw' => ?_,
      fun q' hq' hx => ?_⟩
    · rw [hmark _ (hfirst i)]
      exact h.teams_eq i
    · rw [hmark _ (hfirst i)] at hc ⊢
      exact h.winner_eq i hc
    · rcases List.mem_cons.1 hw' with he | hw'
      · cases he
        exact absurd rfl (hfirst i)
      · exact h.owed_eq i w' (List.mem_cons_of_mem _ hw')
    · by_cases hne : q' = q
      · exact .inr (by simp [hne])
      · rw [hmark q' hne]
        simp only [positions_markAt, positions_seatAt] at hq'
        rcases h.visited q' hq' hx with hn | hd
        · exact .inl hn
        · rw [Pending.decisions_cons_decide]
          exact .inr (List.mem_cons_of_mem _ (by simpa using hd))
  · next hbye =>
    rw [hbye] at hset
    refine ⟨hset, by simp [h.skeleton_eq], fun i => ?_, fun i hc => ?_, fun i w' hw' => ?_,
      fun q' hq' hx => ?_⟩
    · rw [hseat _ (hfirst i)]
      exact h.teams_eq i
    · rw [hseat _ (hfirst i)] at hc ⊢
      exact h.winner_eq i hc
    · exact h.owed_eq i w' (List.mem_cons_of_mem _ hw')
    · by_cases hne : q' = q
      · subst hne
        exact .inl hbye
      · rw [hseat q' hne]
        simp only [positions_seatAt] at hq'
        rcases h.visited q' hq' hx with hn | hd
        · exact .inl hn
        · exact .inr (by simpa using hd)

theorem cascade : Cascade (Clearing c₀ xs) where
  wired _ _ h := h.routed.wired
  decide _ _ _ _ h := h.decide_step
  seat _ _ _ _ _ h := h.seat_step

/-- Visiting a place settles it: a match that faces the bye there is marked, and its decision
is owed for its first team. -/
theorem visit (hne : ∀ i, (c₀.game ⟨0, i⟩).team1 ≠ .str byeTeam) {x : Pos × Match}
    (h : Clearing c₀ (x :: xs) b []) : Settles (Clearing c₀ xs) b x.1 [] := by
  have hR := h.routed.settles_any x.1
  unfold Settles at hR ⊢
  split
  · next w hbye =>
    rw [hbye] at hR
    have hx : x.1 ∈ b.positions := by
      by_contra hn
      have hnone : b.matchAt? x.1 = none :=
        Option.not_isSome_iff_eq_none.1 fun h' => hn (mem_positions.2 h')
      rw [game, hnone] at hbye
      cases hbye
    have hmark : ∀ q', ((b.markAt x.1).game q').team1 = (b.game q').team1 ∧
        ((b.markAt x.1).game q').team2 = (b.game q').team2 ∧
        ((b.markAt x.1).game q').winner = (b.game q').winner ∧
        ((b.markAt x.1).game q').isCompleted = (b.game q').isCompleted := fun q' => by
      rw [game_markAt hx]
      split
      · next he => subst he; exact ⟨rfl, rfl, rfl, rfl⟩
      · exact ⟨rfl, rfl, rfl, rfl⟩
    refine ⟨hR, by simp [h.skeleton_eq], fun i => ?_, fun i hc => ?_, fun i w' hw' => ?_,
      fun q' hq' hq'x => ?_⟩
    · rw [(hmark _).1, (hmark _).2.1]
      exact h.teams_eq i
    · rw [(hmark _).2.2.2] at hc
      rw [(hmark _).2.2.1]
      exact h.winner_eq i hc
    · -- the owed decision is the bye winner, the first team of a first-round match
      obtain ⟨hi, rfl⟩ := Pending.decide.inj (List.mem_singleton.1 hw')
      rw [← hi] at hbye hx
      have hne' := hne i
      rw [← (h.teams_eq i).1] at hne' ⊢
      exact Match.byeWinner?_eq_team1 (h.routed.textual _ hx).1 hne' hbye
    · by_cases he : q' = x.1
      · exact .inr (by simp [he])
      · rw [game_markAt hx, if_neg he]
        rw [positions_markAt] at hq'
        have hq'x' : q' ∉ (x :: xs).map Prod.fst := by simp [he, hq'x]
        exact .inl ((h.visited q' hq' hq'x').resolve_right (by simp))
  · next hbye =>
    refine ⟨h.routed, h.skeleton_eq, h.teams_eq, h.winner_eq, h.owed_eq, fun q' hq' hq'x => ?_⟩
    by_cases he : q' = x.1
    · subst he
      exact .inl hbye
    · have hq'x' : q' ∉ (x :: xs).map Prod.fst := by simp [he, hq'x]
      exact h.visited q' hq' hq'x'

/-- **The bye pass over a seated first round.** Starting from a routed draw with no
first-round match played, and no first team that is the bye, the pass runs to the end on the
same skeleton, with every place visited. -/
theorem resolveByes (hR : Routed c₀ [])
    (hopen : ∀ i, (c₀.game ⟨0, i⟩).isCompleted = false)
    (hne : ∀ i, (c₀.game ⟨0, i⟩).team1 ≠ .str byeTeam) :
    ∃ c, Step.exec Step.resolveByes c₀ = (.ok (), c) ∧ Clearing c₀ [] c [] :=
  Cascade.resolveByes (J := Clearing c₀) (fun _ => cascade) (fun _ _ _ h => h.skeleton_eq)
    (fun _ _ _ h => h.visit hne) (start hR hopen)

/-- After the pass no match faces the bye. -/
theorem byeWinner?_eq_none (h : Clearing c₀ [] b []) (hq : q ∈ b.positions) :
    (b.game q).byeWinner? = none :=
  (h.visited q hq (by simp)).resolve_right (by simp)

/-- After the pass, a first-round match of a team against the bye stands completed, won by
that team. -/
theorem bye_decided (h : Clearing c₀ [] b []) {i : Nat} (hi : (⟨0, i⟩ : Pos) ∈ b.positions)
    (h1 : (c₀.game ⟨0, i⟩).team1 ≠ .null)
    (hne : (c₀.game ⟨0, i⟩).team1 ≠ .str byeTeam)
    (h2 : (c₀.game ⟨0, i⟩).team2 = .str byeTeam) :
    (b.game ⟨0, i⟩).isCompleted = true ∧
      (b.game ⟨0, i⟩).winner = (c₀.game ⟨0, i⟩).team1 := by
  obtain ⟨ht1, ht2⟩ := h.teams_eq i
  have htext := (h.routed.textual _ hi).1
  rw [ht1] at htext
  have hnull : (b.game ⟨0, i⟩).team1.isNull = false := by
    rw [ht1]
    rcases htext with h0 | ⟨s, hs, -⟩
    · exact absurd h0 h1
    · rw [hs]; rfl
  have hb : (b.game ⟨0, i⟩).team1.eqv (.str byeTeam) = false := by
    rw [ht1]
    cases h' : (c₀.game ⟨0, i⟩).team1.eqv (.str byeTeam)
    · rfl
    · exact absurd (htext.eqv_iff.1 h').symm hne
  have hc := Match.isCompleted_of_byeWinner?_eq_none hnull hb (ht2.trans h2)
    (h.byeWinner?_eq_none hi)
  exact ⟨hc, h.winner_eq i hc⟩

end Clearing

/-- A draw where no match faces the bye is left as it is by the bye pass. -/
theorem exec_resolveByes_of_settled {b : Bracket} (hw : b.Wired)
    (h : ∀ q ∈ b.positions, (b.game q).byeWinner? = none) :
    Step.exec Step.resolveByes b = (.ok (), b) := by
  obtain ⟨u, b', hrun, rfl, -⟩ := Step.exec_forIn_of_step
    (fun xs (_ : PUnit) b' => b' = b ∧ ∀ x ∈ xs, x ∈ b.knockoutPlaces)
    (fun x (_ : PUnit) => do
      Step.resolveByeAt x.1
      pure (ForInStep.yield PUnit.unit))
    (fun x xs _ b' hx => by
      obtain ⟨rfl, hmem⟩ := hx
      have hp := (Bracket.mem_knockoutPlaces_iff.1 (hmem x List.mem_cons_self)).1
      refine ⟨PUnit.unit, b', ?_, rfl, fun y hy => hmem y (List.mem_cons_of_mem _ hy)⟩
      obtain ⟨p, m⟩ := x
      simp only [Step.resolveByeAt, Step.exec_bind, Step.exec_matchAt, h _ hp]
      rfl)
    b.knockoutPlaces PUnit.unit b ⟨rfl, fun _ hx => hx⟩
  unfold Step.resolveByes
  rw [Step.exec_bind_of_ok (Step.exec_knockoutKeys hw), Step.exec_bind_of_ok (Step.exec_get _),
    Step.exec_bind_of_ok hrun]
  rfl

end TournamentDraw
