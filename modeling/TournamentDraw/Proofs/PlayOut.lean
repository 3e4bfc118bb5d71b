import TournamentDraw.Proofs.Fairness
import TournamentDraw.Proofs.LinkGraph

/-!
# Playing a knockout draw out

A match is playable when it is open with an entrant on each side, and a result is decisive
when it gives both scores and no state, naming the team that goes through, one of the two, if
the scores are level (`Bracket.Playable`, `Result.Decisive`). A run of requests that each
record a decisive result on a playable match is a `PlayOut`.

On a placed draw every such request succeeds and completes its match, leaving a draw that plays
one more result and is still fair (`Plays.record_playable`); a run therefore decides distinct
matches (`PlayOut.decidedBy`) and is no longer than the number of matches
(`PlayOut.length_le`). Once no match is playable, every match is completed
(`Plays.completed_of_stuck`): an open match would face no bye, and its sides would be filled
by the matches that feed it, which are completed by induction on the round.
-/

open scoped BigOperators

namespace TournamentDraw

/-- A result that decides a match on the field: both scores given as integers and no state
named, and the team that goes through named, one of the two, unless the scores differ. -/
def Result.Decisive (m : Match) (r : Result) : Prop :=
  r.status = .null ∧ ∃ x y : Int, r.score1 = .int x ∧ r.score2 = .int y ∧
    (r.advancing = m.team1 ∨ r.advancing = m.team2 ∨ r.advancing = .null ∧ x ≠ y)

/-- A match of the draw that can be played: open, with an entrant of `T` on each side. -/
def Bracket.Playable (T : List Value) (b : Bracket) (p : Pos) : Prop :=
  p ∈ b.positions ∧ (b.game p).isCompleted = false ∧ (b.game p).team1 ∈ T ∧ (b.game p).team2 ∈ T

theorem Step.outcome_scoreWinner_int (m : Match) (x y : Int) :
    Step.outcome (Step.scoreWinner m (.int x) (.int y)) =
      .ok (if y < x then m.team1 else if x < y then m.team2 else .null) := by
  have hgt : ∀ a c : Int, Relation.holds .gt (compare a c) = decide (c < a) := fun a c => by
    rcases lt_trichotomy a c with h | rfl | h
    · simp [Relation.holds, compare_lt_iff_lt.2 h, not_lt.2 h.le]
    · simp [Relation.holds]
    · simp [Relation.holds, compare_gt_iff_gt.2 h, h]
  simp only [Step.outcome, Step.scoreWinner, Value.isNull, Bool.false_eq_true, or_self, if_false,
    Step.exec_bind, Step.exec_relate, Value.relate_int, hgt, Except.mapError]
  by_cases h : y < x
  · simp [h]
  · by_cases h' : x < y
    · simp [h, h', Step.exec_bind, Step.exec_relate, Value.relate_int, hgt, Except.mapError]
    · simp [h, h', Step.exec_bind, Step.exec_relate, Value.relate_int, hgt, Except.mapError]

/-- A decisive result on a match between two named teams passes the checks and completes it. -/
theorem Match.judge_decisive {m : Match} {id : Value} {r : Result} {a c : String}
    (h1 : m.team1 = .str a) (h2 : m.team2 = .str c) (ha : a ≠ "") (hc : c ≠ "")
    (hd : r.Decisive m) : ∃ v, m.judge id r = .ok v ∧ v.status = .completed := by
  obtain ⟨hst, x, y, hx, hy, hadv⟩ := hd
  have hplay : ¬((!r.advancing.isNull) = true ∧ (!m.plays r.advancing) = true) := by
    rintro ⟨hn, hp⟩
    rcases hadv with h | h | ⟨h, -⟩
    · rw [h, Match.plays, h1, Value.eqv_str_iff.2 rfl] at hp
      simp at hp
    · rw [h, Match.plays, h2, Value.eqv_str_iff.2 rfl, Bool.or_true] at hp
      simp at hp
    · rw [h] at hn
      simp [Value.isNull] at hn
  have hstatus : Step.outcome (Step.resultStatus m r (.int x) (.int y)) = .ok .completed := by
    simp [Step.outcome, Step.resultStatus, hst, Value.isNull]
  -- the team that goes through is named, or wins by the scores
  have hwin : (if r.advancing.truthy = true then r.advancing
      else if y < x then m.team1 else if x < y then m.team2 else .null).isNull = false := by
    rcases hadv with h | h | ⟨h, hne⟩
    · simp [h, h1, Value.truthy, ha, Value.isNull]
    · simp [h, h2, Value.truthy, hc, Value.isNull]
    · rcases lt_or_gt_of_ne hne with hlt | hlt
      · simp [h, h2, hlt, not_lt.2 hlt.le, Value.truthy, Value.isNull]
      · simp [h, h1, hlt, Value.truthy, Value.isNull]
  have hs1 : Step.mergedScore r.score1 m.score1 = .int x := by rw [hx]; rfl
  have hs2 : Step.mergedScore r.score2 m.score2 = .int y := by rw [hy]; rfl
  have hm : ¬(m.team1.isNull = true ∨ m.team2.isNull = true) := by
    rw [h1, h2]
    simp [Value.isNull]
  refine ⟨⟨.int x, .int y, .completed, if y < x then m.team1 else if x < y then m.team2 else .null,
    if r.advancing.truthy = true then r.advancing
      else if y < x then m.team1 else if x < y then m.team2 else .null⟩, ?_, rfl⟩
  rw [Match.judge, if_neg hplay]
  simp only [hs1, hs2, hstatus, Step.outcome_scoreWinner_int, bind, Except.bind, if_true, hm,
    if_false, hwin, Bool.false_eq_true]
  rfl

/-- An open match that faces no bye and has both sides filled has no bye on either side. -/
theorem Match.ne_bye_of_byeWinner? {m : Match} (h1 : m.team1.Textual) (h2 : m.team2.Textual)
    (hopen : m.isCompleted = false) (n1 : m.team1.isNull = false) (n2 : m.team2.isNull = false)
    (h : m.byeWinner? = none) : m.team1 ≠ .str byeTeam ∧ m.team2 ≠ .str byeTeam := by
  unfold byeWinner? at h
  rw [if_neg (by simp [hopen, n1, n2])] at h
  constructor
  · intro he
    rw [if_pos (h1.eqv_iff.2 he.symm)] at h
    cases h
  · intro he
    split at h
    · cases h
    · rw [if_pos (h2.eqv_iff.2 he.symm)] at h
      cases h

/-- Recording a result that completes an open match of a draw kept by a cascade invariant runs
the cascade from the scored match to its end, and answers with the match. -/
theorem Cascade.record {I : Bracket → List Pending → Prop} (hI : Cascade I) {b : Bracket} {p : Pos}
    {id : Value} {r : Result} {v : Verdict} (hw : b.Wired) (hl : b.locate? id = some p)
    (hopen : (b.game p).isCompleted = false) (hj : (b.game p).judge id r = .ok v)
    (hs : v.status = .completed) (h : I (b.modifyAt p (·.scoredBy v r)) [.decide p v.winner]) :
    ∃ b', Step.exec (Step.record id r) b = (.ok (b'.game p), b') ∧ I b' [] := by
  rw [Step.exec_record hw hl, hj]
  simp only [hopen, Bool.false_eq_true, if_false]
  rw [if_pos hs, Bracket.scored_overridden_eq]
  have hfuel : (b.modifyAt p (·.scoredBy v r)).skeleton.length ≤
      (b.modifyAt p (·.scoredBy v r)).knockoutCount + 1 + p.round := by
    have := (hI.wired _ _ h).length_le_knockoutCount
    simp only [Bracket.skeleton, List.length_map]
    omega
  obtain ⟨b₃, hrun₃, hb₃⟩ := (hI.withSkeleton _).settle (fun _ _ h => h.2) _ p v.winner _ []
    hfuel ⟨h, rfl⟩
  rw [hrun₃]
  exact ⟨b₃, rfl, hb₃.1⟩

namespace Entrants

variable {ids : List String}

/-- The bye is no entrant. -/
theorem bye_not_mem (hE : Entrants ids) : Value.str byeTeam ∉ ids.map .str := fun hm => by
  obtain ⟨s, hs, he⟩ := List.mem_map.1 hm
  exact (hE.valid s hs).2 (Value.str.inj he)

theorem ne_bye_of_mem (hE : Entrants ids) {t : Value} (ht : t ∈ ids.map .str) :
    t ≠ .str byeTeam := fun he => hE.bye_not_mem (he ▸ ht)

end Entrants

namespace Bracket.Plays

variable {b₀ b c : Bracket} {D : Pos → Option Result} {p : Pos}

/-- A match with a result played is completed. -/
theorem isCompleted_of_result (h : Plays b₀ D b []) (hp : p ∈ b.positions) {r : Result}
    (hD : D p = some r) : (b.game p).isCompleted = true := by
  obtain ⟨v, hv, -⟩ := h.judged p r hD
  have hg := h.games p hp
  simp only [Pending.decisions_nil, List.not_mem_nil, decide_false] at hg
  rw [hg, Match.played, hD, Match.owed, hv, Option.map_some]
  rfl

/-- An open match with nothing owed faces no bye: the one it faced was decided by the pass. -/
theorem byeWinner?_eq_none (h : Plays b₀ D b []) (hp : p ∈ b.positions)
    (hopen : (b.game p).isCompleted = false) : (b.game p).byeWinner? = none := by
  obtain ⟨hD, hwith⟩ := h.open_eq hp hopen
  have hg := h.games p hp
  simp only [Pending.decisions_nil, List.not_mem_nil, decide_false, hD] at hg
  cases hb : ((b₀.game p).withSides (b.game p)).byeWinner? with
  | none => rwa [← hwith] at hb
  | some w =>
    rw [hg] at hopen
    simp only [Match.played, Match.owed, hb, Option.map_some] at hopen
    cases hopen

variable {ids : List String}

/-- **Recording a decisive result on a playable match.** On a draw that plays results on the
placed draw and is fair to the entrants, the request is not refused: it answers with the match
completed, and leaves a draw that plays the result as well and is still fair. -/
theorem record_playable (h : Plays b₀ D b []) (hE : Entrants ids) (hF : Fair (ids.map .str) b [])
    (hp : b.Playable (ids.map .str) p) {r : Result} (hd : r.Decisive (b.game p)) :
    ∃ b', Step.exec (Step.record (b.game p).id r) b = (.ok (b'.game p), b') ∧
      (b'.game p).isCompleted = true ∧
      Plays b₀ (Function.update D p (some r.settled)) b' [] ∧ Fair (ids.map .str) b' [] := by
  obtain ⟨hpos, hopen, h1, h2⟩ := hp
  have hw := h.slotted.routed.wired
  obtain ⟨a, ha, ha1⟩ := List.mem_map.1 h1
  obtain ⟨c, hc, hc2⟩ := List.mem_map.1 h2
  obtain ⟨v, hj, hs⟩ : ∃ v, (b.game p).judge (b.game p).id r = .ok v ∧ v.status = .completed :=
    Match.judge_decisive ha1.symm hc2.symm (hE.valid a ha).1 (hE.valid c hc).1 hd
  obtain ⟨b', hrun, hP, hF'⟩ := (Fair.cascade Plays.cascade fun _ _ h => h.slotted.routed).record
    hw (Bracket.locate?_id hw hpos) hopen hj hs
    ⟨h.scored hpos hopen hj hs, hF.scored hpos hopen h1 h2 hE.bye_not_mem v r⟩
  have hpos' : p ∈ b'.positions := (positions_eq_of_frame hP.frame_eq).symm ▸
    (positions_eq_of_frame h.frame_eq) ▸ hpos
  exact ⟨b', hrun, hP.isCompleted_of_result hpos' (Function.update_self _ _ _), hP, hF'⟩

end Bracket.Plays

theorem Bracket.card_positions_le (b : Bracket) : b.positions.card ≤ b.knockoutCount := by
  calc b.positions.card ≤ (b.knockoutPlaces.map Prod.fst).length := List.toFinset_card_le _
    _ = b.knockoutCount := by
      simp only [List.length_map, knockoutPlaces, knockoutCount, List.length_flatMap,
        List.length_zipIdx]
      conv_rhs => rw [← List.zipIdx_map_fst 0 b.rounds, List.map_map]
      rfl

/-- A run of requests that each record a decisive result on a playable match of the entrants
`T`, from the draw `b` to the draw `c`. -/
inductive PlayOut (T : List Value) : Bracket → List (Value × Result) → Bracket → Prop
  | done (b : Bracket) : PlayOut T b [] b
  | play {b c : Bracket} {p : Pos} {r : Result} {cs : List (Value × Result)} :
      b.Playable T p → r.Decisive (b.game p) →
      PlayOut T (Step.exec (Step.record (b.game p).id r) b).2 cs c →
      PlayOut T b (((b.game p).id, r) :: cs) c

namespace PlayOut

variable {ids : List String} {b₀ b c : Bracket} {D : Pos → Option Result}
  {cs : List (Value × Result)}

/-- **Every request of a run succeeds.** From a draw that plays results on the placed draw and
is fair, each request of a run answers with its match completed; so the run decides its matches
one after another, and the draw it ends in is fair. -/
theorem decidedBy (hrun : PlayOut (ids.map .str) b cs c) (hE : Entrants ids)
    (h : Bracket.Plays b₀ D b []) (hF : Fair (ids.map .str) b []) :
    DecidedBy b cs c ∧ Fair (ids.map .str) c [] := by
  induction hrun generalizing D with
  | done b => exact ⟨.nil b, hF⟩
  | @play b c p r cs hp hd _ ih =>
    obtain ⟨b', hstep, hdone, hP, hF'⟩ := h.record_playable hE hF hp hd
    rw [hstep] at ih
    obtain ⟨hrest, hFc⟩ := ih hP hF'
    exact ⟨.cons ⟨p, b'.game p, Bracket.locate?_id h.slotted.routed.wired hp.1, hp.2.1, hstep,
      hdone⟩ hrest, hFc⟩

/-- A run ends in a fair draw that plays its results on the placed draw. -/
theorem plays (hrun : PlayOut (ids.map .str) b cs c) (hE : Entrants ids)
    (h : Bracket.Plays b₀ D b []) (hF : Fair (ids.map .str) b []) :
    ∃ D', Bracket.Plays b₀ D' c [] ∧ Fair (ids.map .str) c [] := by
  obtain ⟨hdec, hFc⟩ := hrun.decidedBy hE h hF
  exact ⟨_, (hdec.plays h).1, hFc⟩

/-- **A run ends within the number of matches.** The requests of a run are on distinct
matches of the placed draw, so there are at most as many as it has matches. -/
theorem length_le (hrun : PlayOut (ids.map .str) b cs c) (hE : Entrants ids)
    (h : Bracket.Plays b₀ D b []) (hF : Fair (ids.map .str) b []) :
    cs.length ≤ b₀.knockoutCount := by
  obtain ⟨-, hnd, hsome⟩ := (hrun.decidedBy hE h hF).1.plays h
  have hpos := Bracket.positions_eq_of_frame h.frame_eq
  -- every request names a match of the placed draw
  have hsub : (cs.map fun x => b₀.locate? x.1).toFinset ⊆ b₀.positions.image some := by
    intro o ho
    obtain ⟨x, hx, rfl⟩ := List.mem_map.1 (List.mem_toFinset.1 ho)
    obtain ⟨p, hp, -⟩ := hsome x hx
    rw [hp]
    have hp' := ((Bracket.locate?_eq_some_iff h.slotted.routed.wired).1 ((h.locate x.1).trans hp)).1
    exact Finset.mem_image_of_mem _ (hpos ▸ hp')
  calc cs.length = (cs.map fun x => b₀.locate? x.1).toFinset.card := by
        rw [List.toFinset_card_of_nodup hnd, List.length_map]
    _ ≤ (b₀.positions.image some).card := Finset.card_le_card hsub
    _ ≤ b₀.positions.card := Finset.card_image_le
    _ ≤ b₀.knockoutCount := b₀.card_positions_le

end PlayOut

/-- A match fed by two links of a wired draw has one arriving at each of its sides. -/
theorem Bracket.Wired.exists_feeder_on {b : Bracket} {q : Pos} (hw : b.Wired)
    (hq : (b.feeders q).card = 2) (s : Side) : ∃ x ∈ b.feeders q, b.arrival x.1 x.2 = s := by
  obtain ⟨x, y, hxy, hxyq⟩ := Finset.card_eq_two.1 hq
  have hx : x ∈ b.feeders q := hxyq ▸ Finset.mem_insert_self x {y}
  have hy : y ∈ b.feeders q := hxyq ▸ Finset.mem_insert_of_mem (Finset.mem_singleton_self y)
  by_cases hs : b.arrival x.1 x.2 = s
  · exact ⟨x, hx, hs⟩
  · refine ⟨y, hy, ?_⟩
    -- the two links arrive at different sides, and a match has two
    have hne : b.arrival x.1 x.2 ≠ b.arrival y.1 y.2 := fun he =>
      hxy (Prod.ext_iff.2 (hw.sides q x.1 x.2 y.1 y.2 (Bracket.mem_feeders.1 hx).2
        (Bracket.mem_feeders.1 hy).2 he))
    cases s <;> cases hax : b.arrival x.1 x.2 <;> cases hay : b.arrival y.1 y.2 <;> simp_all

/-- Once a match feeding a side of a later match is completed, that side holds a team: the one
it sent. -/
theorem Slotted.onSide_isNull_of_feeder {b : Bracket} {q : Pos} (h : Slotted b [])
    (hq : q ∈ b.positions) (hr : 0 < q.round) {x : Pos × Link} (hx : x ∈ b.feeders q)
    (hc : (b.game x.1).isCompleted = true) :
    ((b.game q).onSide (b.arrival x.1 x.2)).isNull = false := by
  obtain ⟨hp, hd⟩ := Bracket.mem_feeders.1 hx
  have hsent : b.sentOn x.1 x.2 q (b.arrival x.1 x.2) = {(b.game x.1).mover x.2} := by
    rw [Bracket.sentOn, if_pos rfl, Bracket.sent, if_pos ⟨hc, hd, h.routed.mover_truthy hp hc x.2⟩]
  have hle := Bracket.le_inflowOn (b := b) hp x.2 q (b.arrival x.1 x.2)
  rw [hsent, ← h.exact q hq hr, Bracket.owedOn_nil, add_zero] at hle
  cases hn : ((b.game q).onSide (b.arrival x.1 x.2)).isNull
  · rfl
  · rw [Match.sideOn_eq_zero.2 hn] at hle
    simp at hle

namespace Bracket.Plays

variable {b₀ c : Bracket} {D : Pos → Option Result} {ids : List String}

/-- **Nothing left to play means everything is played.** In a fair draw that plays results on a
placed draw whose first round holds the entrants, with two links into every match past the
first round, every match is completed once none is playable. By induction on the round: an
open match faces no bye, and its sides hold what its feeders sent, who are completed, so it
would hold two entrants and be playable. -/
theorem completed_of_stuck (h : Plays b₀ D c []) (hF : Fair (ids.map .str) c [])
    (hfirst : FirstRoundOf (ids.map .str) b₀)
    (hfeed : ∀ q ∈ c.positions, 0 < q.round → (c.feeders q).card = 2)
    (hstuck : ∀ p, ¬c.Playable (ids.map .str) p) :
    ∀ q ∈ c.positions, (c.game q).isCompleted = true := by
  have hR := h.slotted.routed
  intro q hq
  induction hn : q.round using Nat.strong_induction_on generalizing q with
  | _ n ih =>
  cases hopen : (c.game q).isCompleted
  · exfalso
    refine hstuck q ⟨hq, hopen, ?_⟩
    obtain ⟨t1, t2⟩ := hR.textual q hq
    by_cases h0 : q.round = 0
    · -- a first-round match holds two entrants, or went through against the bye in the pass
      obtain ⟨r, i⟩ := q
      simp only at h0
      subst h0
      have hq₀ : (⟨0, i⟩ : Pos) ∈ b₀.positions := positions_eq_of_frame h.frame_eq ▸ hq
      obtain ⟨e1, e2⟩ := h.first _ hq rfl
      rcases hfirst.paired i hq₀ with ⟨m1, m2⟩ | ⟨-, -, hdone, -⟩
      · exact ⟨e1 ▸ m1, e2 ▸ m2⟩
      · have hwith := (h.open_eq hq hopen).2
        have hsame : ((b₀.game ⟨0, i⟩).withSides (c.game ⟨0, i⟩)).isCompleted =
            (b₀.game ⟨0, i⟩).isCompleted := rfl
        rw [hwith, hsame, hdone] at hopen
        cases hopen
    · -- past the first round, both sides hold what the feeders sent
      have hside : ∀ s, ((c.game q).onSide s).isNull = false := fun s => by
        obtain ⟨x, hx, harr⟩ := hR.wired.exists_feeder_on (hfeed q hq (by omega)) s
        obtain ⟨hp, hd⟩ := mem_feeders.1 hx
        have hc := ih x.1.round (hn ▸ round_lt_of_dest hR.wired hp hd) x.1 hp rfl
        rw [← harr]
        exact h.slotted.onSide_isNull_of_feeder hq (by omega) hx hc
      obtain ⟨nb1, nb2⟩ := Match.ne_bye_of_byeWinner? t1 t2 hopen (hside .first) (hside .second)
        (h.byeWinner?_eq_none hq hopen)
      -- a filled side that is not the bye holds an entrant
      have entrant : ∀ s, (c.game q).onSide s ≠ .str byeTeam → (c.game q).onSide s ∈ ids.map .str :=
        fun s hb => by
          rcases hF.entries q hq s with hm | hm | hm
          · exact hm
          · exact absurd hm hb
          · have := hside s
            rw [hm] at this
            cases this
      exact ⟨entrant .first nb1, entrant .second nb2⟩
  · rfl

end Bracket.Plays

end TournamentDraw
