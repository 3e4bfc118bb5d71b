import TournamentDraw.Proofs.Placing

/-!
# Byes lose, entrants play

In a knockout draw for the entrants `T` a match is decided in one of two ways: on the field,
between two entrants, or against the bye, which then loses it. `Fair` says so of every match
in the middle of a cascade, with what a side may hold (an entrant, the bye, or nothing yet) and
what a match marked as passed against the bye still owes.

It is a cascade invariant (`Fair.cascade`), it holds once the entrants are seated in a fresh
draw (`Bracket.Fresh.fair_seatFirst`) and through the bye pass, so of a placed draw
(`Bracket.Fresh.fair_placeTeams`), and a result scored on a match between two entrants keeps it
(`Fair.scored`).
-/

namespace TournamentDraw

/-- What a side of a match of a draw for the entrants `T` may hold: an entrant, the bye, or
nothing yet. -/
def Value.Entry (T : List Value) (v : Value) : Prop :=
  v ∈ T ∨ v = .str byeTeam ∨ v = .null

namespace Match

variable {m : Match} {w : Value}

@[simp] theorem onSide_decidedFor (m : Match) (w : Value) (s : Side) :
    (m.decidedFor w).onSide s = m.onSide s := by
  cases s <;> rfl

@[simp] theorem onSide_scoredBy (m : Match) (v : Verdict) (r : Result) (s : Side) :
    (m.scoredBy v r).onSide s = m.onSide s := by
  cases s
  · exact team1_scoredBy m v r
  · exact team2_scoredBy m v r

theorem onSide_seatOn_cases (m : Match) (x : Value) (s s' : Side) :
    (m.seatOn x s).onSide s' = x ∨ (m.seatOn x s).onSide s' = m.onSide s' := by
  cases s <;> cases s' <;> simp [Match.seatOn, onSide]

@[simp] theorem autoAdvance_scoredBy (m : Match) (v : Verdict) (r : Result) :
    (m.scoredBy v r).autoAdvance = m.autoAdvance := by
  unfold scoredBy
  split <;> rfl

@[simp] theorem isCompleted_seatOn (m : Match) (x : Value) (s : Side) :
    (m.seatOn x s).isCompleted = m.isCompleted := by
  cases s <;> rfl

@[simp] theorem autoAdvance_seatOn (m : Match) (x : Value) (s : Side) :
    (m.seatOn x s).autoAdvance = m.autoAdvance := by
  cases s <;> rfl

/-- A match decided against the bye is lost by the bye, whichever side it stood on. -/
theorem loserFor_of_byeWinner? (h1 : m.team1.Textual) (h2 : m.team2.Textual)
    (h : m.byeWinner? = some w) : m.loserFor w = .str byeTeam := by
  unfold byeWinner? at h
  split at h
  · cases h
  split at h
  · next hb =>
    cases h
    have e1 : m.team1 = .str byeTeam := (h1.eqv_iff.1 hb).symm
    unfold loserFor
    split
    · next he => exact (h2.eqv_iff.1 he).symm.trans e1
    · exact e1
  split at h
  · next hb =>
    cases h
    unfold loserFor
    rw [if_pos (h1.eqv_iff.2 rfl)]
    exact (h2.eqv_iff.1 hb).symm
  · cases h

theorem seated_autoAdvance {teams : List Value} {byes i : Nat} (m : Match) :
    (m.seated teams byes i).autoAdvance = m.autoAdvance := by
  unfold seated
  split
  · split <;> rfl
  · rfl

theorem seated_team2_of_lt {teams : List Value} {byes i : Nat} (m : Match) (h : i < byes) :
    (m.seated teams byes i).team2 = m.team2 := by
  unfold seated
  rw [if_pos h]
  split <;> rfl

end Match

/-- How the matches of a knockout draw for the entrants `T` are decided, in the middle of a
cascade that owes `ps`. Every side holds an entrant, the bye or nothing. A match marked as
passed against the bye is decided, or owed its decision, or is a first-round match against
the bye that the pass has not reached. The bye lost every decided match marked so, a decided
or owed match not marked so is one between two entrants, and a marked match owes its
decision to the team that faces the bye. -/
structure Fair (T : List Value) (b : Bracket) (ps : List Pending) : Prop where
  entries : ∀ q ∈ b.positions, ∀ s, ((b.game q).onSide s).Entry T
  marked : ∀ q ∈ b.positions, (b.game q).autoAdvance.truthy = true →
    (b.game q).isCompleted = true ∨ q ∈ Pending.decisions ps ∨
      (q.round = 0 ∧ (b.game q).team2 = .str byeTeam)
  byeLost : ∀ q ∈ b.positions, (b.game q).isCompleted = true → q ∉ Pending.decisions ps →
    (b.game q).autoAdvance.truthy = true → (b.game q).loser = .str byeTeam
  played : ∀ q ∈ b.positions, ((b.game q).isCompleted = true ∨ q ∈ Pending.decisions ps) →
    (b.game q).autoAdvance.truthy = false → (b.game q).team1 ∈ T ∧ (b.game q).team2 ∈ T
  owedBye : ∀ q w, .decide q w ∈ ps → (b.game q).autoAdvance.truthy = true →
    (b.game q).byeWinner? = some w

namespace Routed

variable {b : Bracket} {ps : List Pending} {p q : Pos} {k : Link} {x : Value}

/-- The match a pending seat leads to is still open, owes no decision, and lies past the
first round: one of its sides is still empty, as the link's team is owed to it and at most
two teams are sent into a match. -/
theorem open_of_seat (h : Routed b (.seat p k x :: ps)) (hq : b.dest p k = some q) :
    (b.game q).isCompleted = false ∧ q ∉ Pending.decisions ps ∧ 0 < q.round := by
  have hp := (h.seats p k x List.mem_cons_self).1
  have hqpos := Bracket.mem_positions_of_dest h.wired hq
  have hr : 0 < q.round := Nat.lt_of_le_of_lt (Nat.zero_le _) (Bracket.round_lt_of_dest h.wired hp hq)
  have hbal := h.balanced q hqpos hr
  rw [Bracket.owed_cons_seat, if_pos hq] at hbal
  have hcard : Multiset.card (b.game q).sides ≤ 1 := by
    have h2 := Bracket.card_inflow_le h.wired q
    rw [← hbal, Multiset.card_add, Multiset.card_cons] at h2
    omega
  -- a decided or owed match has both its sides, which the count leaves no room for
  have hfull : (b.game q).team1 ≠ .null → (b.game q).team2 ≠ .null → False := fun n1 n2 => by
    have h1 : (b.game q).team1.isNull = false := by
      cases ht : (b.game q).team1 <;> simp_all [Value.isNull]
    have h2 : (b.game q).team2.isNull = false := by
      cases ht : (b.game q).team2 <;> simp_all [Value.isNull]
    rw [Match.card_sides, h1, h2] at hcard
    simp at hcard
  have hnd : q ∉ Pending.decisions ps := fun hd => by
    obtain ⟨w, hw⟩ := Pending.exists_decide_of_mem hd
    obtain ⟨-, n1, n2, -⟩ := h.decisions q w (List.mem_cons_of_mem _ hw)
    exact hfull n1 n2
  refine ⟨?_, hnd, hr⟩
  cases hc : (b.game q).isCompleted
  · rfl
  · obtain ⟨n1, n2, -⟩ := h.decided q hqpos hc (by simpa using hnd)
    exact (hfull n1 n2).elim

/-- The team a pending seat moves is a side of the decided match it leaves. -/
theorem mover_of_seat (h : Routed b (.seat p k x :: ps)) :
    x = (b.game p).team1 ∨ x = (b.game p).team2 := by
  obtain ⟨hp, hc, -, rfl, hxt⟩ := h.seats p k x List.mem_cons_self
  have hfresh : p ∉ Pending.decisions (.seat p k ((b.game p).mover k) :: ps) := by
    intro hd
    have hnull := h.unplayed p hp (.inr hd)
    cases k <;> simp [Match.mover, hnull, Value.truthy] at hxt
  obtain ⟨-, -, hwl⟩ := h.decided p hp hc hfresh
  cases k <;> rcases hwl with ⟨hw, hl⟩ | ⟨hw, hl⟩ <;> simp [Match.mover, hw, hl]

end Routed

namespace Fair

variable {T : List Value} {b : Bracket} {ps : List Pending} {p q : Pos}

/-- Deciding the match on top of the stack keeps the invariant: a marked match owes its
decision to the team facing the bye, so the bye loses it. -/
theorem decide_step {w : Value} (hR : Routed b (.decide p w :: ps)) (h : Fair T b (.decide p w :: ps)) :
    Fair T (b.decideAt p w) (b.seatsAfter p w ++ ps) := by
  have hp := (hR.decisions p w List.mem_cons_self).1
  have hnd : p ∉ Pending.decisions ps := (List.nodup_cons.1 hR.nodup).1
  have hdec : Pending.decisions (b.seatsAfter p w ++ ps) = Pending.decisions ps := by
    simp [Bracket.decisions_seatsAfter]
  have hgame := Bracket.game_decideAt hp w
  refine ⟨fun q hq s => ?_, fun q hq hm => ?_, fun q hq hc hd hm => ?_, fun q hq hc hm => ?_,
    fun q w' hw hm => ?_⟩
  · rw [Bracket.positions_decideAt] at hq
    rw [hgame]
    split
    · subst q
      rw [Match.onSide_decidedFor]
      exact h.entries p hp s
    · exact h.entries q hq s
  · rw [Bracket.positions_decideAt] at hq
    rw [hgame] at hm ⊢
    split
    · exact .inl rfl
    · next hne =>
      rw [if_neg hne] at hm
      simpa [hne, hdec] using h.marked q hq hm
  · rw [Bracket.positions_decideAt] at hq
    rw [hgame] at hc hm ⊢
    split
    · next he =>
      subst q
      rw [if_pos rfl] at hm
      obtain ⟨t1, t2⟩ := hR.textual p hp
      exact Match.loserFor_of_byeWinner? t1 t2 (h.owedBye p w List.mem_cons_self hm)
    · next hne =>
      rw [if_neg hne] at hc hm
      exact h.byeLost q hq hc (by simpa [hne, hdec] using hd) hm
  · rw [Bracket.positions_decideAt] at hq
    rw [hgame] at hc hm ⊢
    split
    · next he =>
      subst q
      rw [if_pos rfl] at hm
      exact h.played p hp (.inr List.mem_cons_self) hm
    · next hne =>
      rw [if_neg hne] at hc hm
      exact h.played q hq (by simpa [hne, hdec] using hc) hm
  · -- the seats owed after a decision are no decisions, and `p` is owed no other
    have hw' : Pending.decide q w' ∈ ps := by
      rcases List.mem_append.1 hw with hs | hs
      · exact absurd hs Pending.decide_not_mem_seatsAfter
      · exact hs
    have hne : q ≠ p := fun he => hnd (he ▸ Pending.mem_decisions_of_mem hw')
    rw [hgame, if_neg hne] at hm ⊢
    exact h.owedBye q w' (List.mem_cons_of_mem _ hw') hm

/-- Checking the match at `q` for the bye keeps the invariant, when `q` owes no decision yet:
a match that faces the bye is marked and owes its decision to the other team. -/
theorem settles (h : Fair T b ps) (hq : q ∈ b.positions) (hfresh : q ∉ Pending.decisions ps) :
    Settles (Fair T) b q ps := by
  unfold Settles
  split
  · next w hw =>
    have hopen := (Match.byeWinner?_eq_some hw).1
    have hgame := Bracket.game_markAt hq
    refine ⟨fun q' hq' s => ?_, fun q' hq' hm => ?_, fun q' hq' hc hd hm => ?_,
      fun q' hq' hc hm => ?_, fun q' w' hw' hm => ?_⟩ <;>
      simp only [Bracket.positions_markAt, Pending.decisions_cons_decide, List.mem_cons] at *
    · rw [hgame]
      split
      · subst q'
        cases s
        · exact h.entries q hq .first
        · exact h.entries q hq .second
      · exact h.entries q' hq' s
    · by_cases he : q' = q
      · exact .inr (.inl (.inl he))
      · rw [hgame, if_neg he] at hm ⊢
        rcases h.marked q' hq' hm with hc | hd | hbye
        · exact .inl hc
        · exact .inr (.inl (.inr hd))
        · exact .inr (.inr hbye)
    · have hne : q' ≠ q := fun he => hd (.inl he)
      rw [hgame, if_neg hne] at hc hm ⊢
      exact h.byeLost q' hq' hc (fun h' => hd (.inr h')) hm
    · rw [hgame] at hc hm ⊢
      split
      · next he =>
        rw [if_pos he] at hm
        cases hm
      · next hne =>
        rw [if_neg hne] at hc hm
        exact h.played q' hq' (hc.imp_right (·.resolve_left hne)) hm
    · rw [hgame] at hm ⊢
      rcases hw' with he | hw'
      · obtain ⟨rfl, rfl⟩ := Pending.decide.inj he
        rw [if_pos rfl]
        exact hw
      · have hne : q' ≠ q := fun he => hfresh (he ▸ Pending.mem_decisions_of_mem hw')
        rw [if_neg hne] at hm ⊢
        exact h.owedBye q' w' hw' hm
  · exact h

/-- Seating the team owed on top of the stack keeps the invariant: the team is a side of the
match it leaves, and the match it joins is open and owes nothing, so only its sides change. -/
theorem seat_step {k : Link} {x : Value} (hR : Routed b (.seat p k x :: ps))
    (h : Fair T b (.seat p k x :: ps)) (hq : b.dest p k = some q) (s : Side) :
    Settles (Fair T) (b.seatAt q x s) q ps := by
  have hp := (hR.seats p k x List.mem_cons_self).1
  have hqpos := Bracket.mem_positions_of_dest hR.wired hq
  obtain ⟨hopen, hfresh, hr⟩ := hR.open_of_seat hq
  have hx : x.Entry T := by
    rcases hR.mover_of_seat with rfl | rfl
    · exact h.entries p hp .first
    · exact h.entries p hp .second
  have hgame := Bracket.game_seatAt hqpos x s
  refine Fair.settles ⟨fun q' hq' s' => ?_, fun q' hq' hm => ?_, fun q' hq' hc hd hm => ?_,
    fun q' hq' hc hm => ?_, fun q' w hw hm => ?_⟩ (by simpa using hqpos) hfresh
  · rw [Bracket.positions_seatAt] at hq'
    rw [hgame]
    split
    · subst q'
      rcases Match.onSide_seatOn_cases (b.game q) x s s' with he | he <;> rw [he]
      · exact hx
      · exact h.entries q hqpos s'
    · exact h.entries q' hq' s'
  · rw [Bracket.positions_seatAt] at hq'
    rw [hgame] at hm ⊢
    split
    · next he =>
      subst q'
      rw [if_pos rfl, Match.autoAdvance_seatOn] at hm
      rcases h.marked q hqpos hm with hc | hd | ⟨h0, -⟩
      · rw [hopen] at hc
        cases hc
      · exact absurd hd hfresh
      · omega
    · next hne =>
      rw [if_neg hne] at hm
      exact h.marked q' hq' hm
  · rw [Bracket.positions_seatAt] at hq'
    rw [hgame] at hc hm ⊢
    split
    · next he =>
      subst q'
      rw [if_pos rfl, Match.isCompleted_seatOn, hopen] at hc
      cases hc
    · next hne =>
      rw [if_neg hne] at hc hm
      exact h.byeLost q' hq' hc hd hm
  · rw [Bracket.positions_seatAt] at hq'
    rw [hgame] at hc hm ⊢
    split
    · next he =>
      subst q'
      rw [if_pos rfl, Match.isCompleted_seatOn, hopen] at hc
      exact (hc.resolve_left Bool.false_ne_true |> hfresh).elim
    · next hne =>
      rw [if_neg hne] at hc hm
      exact h.played q' hq' hc hm
  · have hne : q' ≠ q := fun he => hfresh (he ▸ Pending.mem_decisions_of_mem hw)
    rw [hgame, if_neg hne] at hm ⊢
    exact h.owedBye q' w (List.mem_cons_of_mem _ hw) hm

/-- The invariant rides along any cascade invariant that keeps the routing. -/
theorem cascade {I : Bracket → List Pending → Prop} (hI : Cascade I)
    (hR : ∀ b ps, I b ps → Routed b ps) : Cascade (fun b ps => I b ps ∧ Fair T b ps) :=
  hI.and (fun _ _ _ _ h₁ h₂ => h₂.decide_step (hR _ _ h₁))
    (fun _ _ _ _ _ _ s h₁ h₂ _ hq => h₂.seat_step (hR _ _ h₁) hq s)

/-- With nothing owed, checking any match for the bye keeps the invariant. -/
theorem settles_any (h : Fair T b []) (q : Pos) : Settles (Fair T) b q [] := by
  by_cases hq : q ∈ b.positions
  · exact h.settles hq (by simp)
  · have hnone : (b.game q).byeWinner? = none := by
      rw [Bracket.game_eq_default hq]
      rfl
    unfold Settles
    rw [hnone]
    exact h

/-- Scoring an open match between two entrants keeps the invariant, with its decision owed:
only a match against the bye is ever marked, so this one is not. -/
theorem scored (h : Fair T b []) (hp : p ∈ b.positions) (hopen : (b.game p).isCompleted = false)
    (h1 : (b.game p).team1 ∈ T) (h2 : (b.game p).team2 ∈ T) (hT : Value.str byeTeam ∉ T)
    (v : Verdict) (r : Result) :
    Fair T (b.modifyAt p (·.scoredBy v r)) [.decide p v.winner] := by
  have hgame : ∀ q, (b.modifyAt p (·.scoredBy v r)).game q =
      if q = p then (b.game p).scoredBy v r else b.game q := fun q => by
    rw [Bracket.game_modifyAt _ _ _ _ hp]
    split
    · next he => rw [he]
    · rfl
  have hunmarked : (b.game p).autoAdvance.truthy = false := by
    cases ha : (b.game p).autoAdvance.truthy
    · rfl
    · rcases h.marked p hp ha with hc | hd | ⟨-, hb⟩
      · rw [hopen] at hc
        cases hc
      · cases hd
      · exact absurd (hb ▸ h2) hT
  refine ⟨fun q hq s => ?_, fun q hq hm => ?_, fun q hq hc hd hm => ?_, fun q hq hc hm => ?_,
    fun q w hw hm => ?_⟩ <;>
    simp only [Bracket.positions_modifyAt, Pending.decisions_cons_decide, Pending.decisions_nil,
      List.mem_cons, List.not_mem_nil, or_false, Pending.decide.injEq] at *
  · rw [hgame]
    split
    · next he =>
      subst he
      rw [Match.onSide_scoredBy]
      exact h.entries q hq s
    · exact h.entries q hq s
  · rw [hgame] at hm ⊢
    split
    · next he => exact .inr (.inl he)
    · next hne =>
      rw [if_neg hne] at hm
      rcases h.marked q hq hm with hc | hd | hb
      · exact .inl hc
      · cases hd
      · exact .inr (.inr hb)
  · rw [hgame, if_neg hd] at hc hm ⊢
    exact h.byeLost q hq hc (by simp) hm
  · rw [hgame] at hc hm ⊢
    split
    · next he =>
      subst he
      rw [Match.team1_scoredBy, Match.team2_scoredBy]
      exact ⟨h1, h2⟩
    · next hne =>
      rw [if_neg hne] at hc hm
      exact h.played q hq (.inl (hc.resolve_right hne)) hm
  · obtain ⟨rfl, rfl⟩ := hw
    rw [hgame, if_pos rfl, Match.autoAdvance_scoredBy, hunmarked] at hm
    cases hm

end Fair

/-- Settling a match keeps the frame, so it settles with the frame held fixed. -/
theorem Settles.withFrame {I : Bracket → List Pending → Prop} {b : Bracket} {q : Pos}
    {ps : List Pending} (h : Settles I b q ps) {F : Bracket} (hF : b.frame = F) :
    Settles (fun b ps => I b ps ∧ b.frame = F) b q ps := by
  unfold Settles at h ⊢
  cases hbye : (b.game q).byeWinner? <;> rw [hbye] at h
  · exact ⟨h, hF⟩
  · exact ⟨h, by rw [Bracket.markAt, Bracket.frame_modifyAt, hF]⟩

/-- The cascade changes matches only, never the frame of the draw. -/
theorem Cascade.withFrame {I : Bracket → List Pending → Prop} (hI : Cascade I) (F : Bracket) :
    Cascade (fun b ps => I b ps ∧ b.frame = F) where
  wired b ps h := hI.wired b ps h.1
  decide b p w ps h := by
    obtain ⟨hp, h'⟩ := hI.decide b p w ps h.1
    exact ⟨hp, h', by rw [Bracket.decideAt, Bracket.frame_modifyAt, h.2]⟩
  seat b p k x ps h := by
    obtain ⟨hp, q, s, hq, hs, hset⟩ := hI.seat b p k x ps h.1
    exact ⟨hp, q, s, hq, hs, hset.withFrame (by rw [Bracket.seatAt, Bracket.frame_modifyAt, h.2])⟩

namespace Bracket

variable {b : Bracket}

theorem frame_foldl_modifyAt {α : Type} (pos : α → Pos) (f : α → Match → Match) (l : List α)
    (b : Bracket) : (l.foldl (fun b x => b.modifyAt (pos x) (f x)) b).frame = b.frame := by
  induction l generalizing b with
  | nil => rfl
  | cons x l ih => rw [List.foldl_cons, ih, frame_modifyAt]

theorem frame_seatFirst (teams : List Value) : (b.seatFirst teams).frame = b.frame := by
  unfold seatFirst
  dsimp only
  exact (frame_foldl_modifyAt _ _ _ _).trans (frame_foldl_modifyAt _ _ _ _)

namespace Fresh

variable {n w : Nat}

/-- Teams seated in a fresh draw: nothing is decided, every side holds a team, the bye or
nothing, and only the byes of the first round are marked, the bye on their second side. -/
theorem fair_seatFirst (hF : b.Fresh n w) (T : List Value) : Fair T (b.seatFirst T) [] := by
  -- a seated match keeps its mark and its state, and a marked one keeps the bye
  have hseat : ∀ q ∈ b.positions, (∀ s, (((b.seatFirst T).game q).onSide s).Entry T) ∧
      ((b.seatFirst T).game q).autoAdvance = (b.game q).autoAdvance ∧
      ((b.seatFirst T).game q).status = .pending ∧
      ((b.game q).autoAdvance.truthy = true →
        q.round = 0 ∧ ((b.seatFirst T).game q).team2 = .str byeTeam) := by
    intro q hq
    obtain ⟨h1, h2, ha, -, -, hs⟩ := hF.blank q hq
    have e1 : (b.game q).team1.Entry T := .inr (.inr h1)
    have e2 : (b.game q).team2.Entry T := by
      rw [h2]
      split
      · exact .inr (.inl rfl)
      · exact .inr (.inr rfl)
    have hbye : (b.game q).autoAdvance.truthy = true →
        q.round = 0 ∧ q.index < 2 * w - n ∧ (b.game q).team2 = .str byeTeam := fun ht => by
      rw [ha] at ht
      split at ht
      · next hb => exact ⟨hb.1, hb.2, by rw [h2, if_pos hb]⟩
      · cases ht
    rw [hF.game_seatFirst]
    split
    · obtain ⟨f1, f2⟩ := @Match.seated_teams T (min (2 * w - n) w) q.index (Value.Entry T)
        (fun v hv => .inl hv) (.inr (.inr rfl)) _ e1 e2
      refine ⟨fun s => ?_, Match.seated_autoAdvance _, (Match.seated_result _).2.2.trans hs,
        fun ht => ?_⟩
      · cases s
        · exact f1
        · exact f2
      · obtain ⟨h0, hi, hb2⟩ := hbye ht
        have hiw := hF.lt_of_mem_first (show (⟨0, q.index⟩ : Pos) ∈ b.positions by
          rw [← h0]
          exact hq)
        exact ⟨h0, (Match.seated_team2_of_lt _ (by omega)).trans hb2⟩
    · refine ⟨fun s => ?_, rfl, hs, fun ht => ⟨(hbye ht).1, (hbye ht).2.2⟩⟩
      cases s
      · exact e1
      · exact e2
  have hpos := positions_seatFirst (b := b) T
  refine ⟨fun q hq s => ?_, fun q hq hm => ?_, fun q hq hc _ _ => ?_, fun q hq hc _ => ?_,
    fun _ _ hw => by cases hw⟩ <;> rw [hpos] at hq
  · exact (hseat q hq).1 s
  · obtain ⟨-, ha, -, hbye⟩ := hseat q hq
    rw [ha] at hm
    exact .inr (.inr (hbye hm))
  · rw [Match.isCompleted, (hseat q hq).2.2.1] at hc
    cases hc
  · rcases hc with hc | hc
    · rw [Match.isCompleted, (hseat q hq).2.2.1] at hc
      cases hc
    · cases hc

/-- **Placing entrants keeps the matches fair.** Distinct entrants that fit into a fresh draw
are seated and the byes passed: then a match is decided against the bye only if the bye lost
it, and otherwise on the field between two entrants; and the draw keeps its frame. -/
theorem fair_placeTeams (hF : b.Fresh n w) {ids : List String} (hE : Entrants ids)
    (hlen : ids.length = n) (hn : n ≤ 2 * w) :
    Fair (ids.map .str) (Step.exec (Step.placeTeams (ids.map .str)) b).2 [] ∧
      (Step.exec (Step.placeTeams (ids.map .str)) b).2.frame = b.frame := by
  have hlen' : (ids.map Value.str).length = n := by rw [List.length_map, hlen]
  obtain ⟨c, hpass, hc⟩ := Cascade.resolveByes
    (J := fun xs c ps => (Clearing (b.seatFirst (ids.map .str)) xs c ps ∧
      Fair (ids.map .str) c ps) ∧ c.frame = b.frame)
    (fun _ => (Fair.cascade Clearing.cascade fun _ _ h => h.routed).withFrame _)
    (fun _ _ _ h => h.1.1.skeleton_eq)
    (fun _ _ _ h => ((h.1.1.visit (hF.team1_seatFirst_ne hE.valid)).and
      (h.1.2.settles_any _)).withFrame h.2)
    ⟨⟨Clearing.start (hF.routed_seatFirst hE.nodup hE.valid hlen hn) (hF.open_seatFirst _),
      hF.fair_seatFirst _⟩, frame_seatFirst _⟩
  rw [hF.exec_placeTeams_of_le hlen' hn hpass hc.1.1.routed.wired.fixtures_eq]
  exact ⟨hc.1.2, hc.2⟩

end Fresh

end Bracket

end TournamentDraw
