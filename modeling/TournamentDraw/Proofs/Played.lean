import TournamentDraw.Proofs.Sides

/-!
# Draws with their results played

A knockout draw on which results have been recorded, one per match and none corrected, is
fixed by the draw it started from and by the results: it does not matter in which order they
came. `Plays b₀ D b ps` reads a draw `b` as the placed draw `b₀` with the results `D` played,
while the cascade still owes `ps`. Each match holds the match of `b₀` with the sides it now
has (`Match.withSides`), scored by its result if it has one, or marked as passed against the
bye if it faces the bye (`Match.owed`), and decided for the winner unless the cascade still
owes the decision (`Match.played`).

The reading is an invariant of the cascade (`Plays.cascade`), holds of a placed draw in which
no open match faces the bye (`Plays.start`), and survives recording a result on an open match
(`Plays.record`). It determines the draw (`Plays.eq_of_plays`): the sides of a first-round
match are those placed, and a side of a later match holds what its one feeding link sent, so
by induction on the round every match is the same in two draws with the same results.
-/

namespace TournamentDraw

/-- A result as it stands once it has decided its match: the state it names is completed. -/
def Result.settled (r : Result) : Result := { r with status := .str "COMPLETED" }

namespace Match

/-- The id handed to a result appears in its refusals only: whether the result passes, and
the verdict, do not depend on it. -/
theorem judge_ok_id {m : Match} {id : Value} {r : Result} {v : Verdict} (h : m.judge id r = .ok v)
    (id' : Value) : m.judge id' r = .ok v := by
  obtain ⟨hplay, hst, hsw, h1, h2, hw, hdone⟩ := judge_eq_ok h
  obtain ⟨s1, s2, st, byScore, w⟩ := v
  simp only at h1 h2 hw hst hsw hdone
  subst h1 h2 hw
  unfold judge
  rw [if_neg hplay]
  simp only [hst, hsw, bind, Except.bind, pure, Except.pure]
  by_cases hc : st = .completed
  · obtain ⟨n1, n2, nw⟩ := hdone hc
    simp [hc, n1, n2, nw]
  · simp [hc]

/-- The state a result names is read only to set the state of the match. -/
theorem judge_status (m : Match) (id : Value) (r : Result) {x : Value}
    (h : Step.outcome (Step.resultStatus m { r with status := x } (Step.mergedScore r.score1 m.score1)
      (Step.mergedScore r.score2 m.score2)) = Step.outcome (Step.resultStatus m r
      (Step.mergedScore r.score1 m.score1) (Step.mergedScore r.score2 m.score2))) :
    m.judge id { r with status := x } = m.judge id r := by
  simp only [judge, h]

/-- A result that completes a match gives the same verdict once its state is set to completed. -/
theorem judge_settled {m : Match} {id : Value} {r : Result} {v : Verdict}
    (h : m.judge id r = .ok v) (hs : v.status = .completed) : m.judge id r.settled = .ok v := by
  obtain ⟨-, hst, -, h1, h2, -⟩ := judge_eq_ok h
  rw [hs, h1, h2] at hst
  have hdone : Step.outcome (Step.resultStatus m r.settled (Step.mergedScore r.score1 m.score1)
      (Step.mergedScore r.score2 m.score2)) = .ok .completed := rfl
  rw [Result.settled, judge_status m id r (hdone.trans hst.symm), h]

/-- The match `m₀` with the sides of `m`. -/
def withSides (m₀ m : Match) : Match := { m₀ with team1 := m.team1, team2 := m.team2 }

/-- The verdict on a result for the match, if the result passes. -/
def verdict? (m : Match) (r : Result) : Option Verdict := (m.judge m.id r).toOption

/-- The match scored by a verdict on a result: its scores and state, and the winner set by hand
when the result names a team that goes through against the scores. -/
def scoredBy (m : Match) (v : Verdict) (r : Result) : Match :=
  if v.overrides r then { m.rescored v with manualWinner := r.advancing, manualOverride := .bool true }
  else m.rescored v

/-- The decision owed to the match `m₀` once it has the sides of `m` and maybe a result: the
match as it stands before the decision, and the team that goes through. A match with a result
is scored by it; one without is owed a decision only if it faces the bye. -/
def owed (m₀ m : Match) : Option Result → Option (Match × Value)
  | some r => ((m₀.withSides m).verdict? r).map fun v => ((m₀.withSides m).scoredBy v r, v.winner)
  | none => (m₀.withSides m).byeWinner?.map fun w =>
      ({ m₀.withSides m with autoAdvance := .bool true }, w)

/-- The match `m₀` with the sides of `m` and the result `d` played: decided for the team that
goes through, unless the decision is still pending. -/
def played (m₀ m : Match) (d : Option Result) (pending : Bool) : Match :=
  match m₀.owed m d with
  | some (m', w) => if pending then m' else m'.decidedFor w
  | none => m₀.withSides m

@[simp] theorem team1_withSides (m₀ m : Match) : (m₀.withSides m).team1 = m.team1 := rfl

@[simp] theorem team2_withSides (m₀ m : Match) : (m₀.withSides m).team2 = m.team2 := rfl

theorem withSides_self (m : Match) : m.withSides m = m := rfl

theorem withSides_congr {m₀ m m' : Match} (h1 : m'.team1 = m.team1) (h2 : m'.team2 = m.team2) :
    m₀.withSides m' = m₀.withSides m := by
  simp only [withSides, h1, h2]

theorem withSides_decidedFor (m₀ m : Match) (w : Value) :
    m₀.withSides (m.decidedFor w) = m₀.withSides m := rfl

theorem withSides_seatOn (m₀ m : Match) (x : Value) (s : Side) :
    (m₀.withSides m).seatOn x s = m₀.withSides (m.seatOn x s) := by
  cases s <;> rfl

theorem owed_congr {m₀ m m' : Match} (h1 : m'.team1 = m.team1) (h2 : m'.team2 = m.team2)
    (d : Option Result) : m₀.owed m' d = m₀.owed m d := by
  cases d <;> simp only [owed, withSides_congr h1 h2]

theorem played_congr {m₀ m m' : Match} (h1 : m'.team1 = m.team1) (h2 : m'.team2 = m.team2)
    (d : Option Result) (pending : Bool) : m₀.played m' d pending = m₀.played m d pending := by
  simp only [played, owed_congr h1 h2, withSides_congr h1 h2]

theorem played_decidedFor (m₀ m : Match) (w : Value) (d : Option Result) (pending : Bool) :
    m₀.played (m.decidedFor w) d pending = m₀.played m d pending :=
  played_congr rfl rfl d pending

@[simp] theorem team1_scoredBy (m : Match) (v : Verdict) (r : Result) :
    (m.scoredBy v r).team1 = m.team1 := by
  unfold scoredBy
  split <;> rfl

@[simp] theorem team2_scoredBy (m : Match) (v : Verdict) (r : Result) :
    (m.scoredBy v r).team2 = m.team2 := by
  unfold scoredBy
  split <;> rfl

theorem scoredBy_settled (m : Match) (v : Verdict) (r : Result) :
    m.scoredBy v r.settled = m.scoredBy v r := rfl

theorem keepsLinks_scoredBy (v : Verdict) (r : Result) : KeepsLinks (·.scoredBy v r) := fun m => by
  unfold scoredBy
  split <;> exact ⟨rfl, rfl, rfl⟩

theorem verdict?_of_judge {m : Match} {id : Value} {r : Result} {v : Verdict}
    (h : m.judge id r = .ok v) : m.verdict? r = some v := by
  rw [verdict?, judge_ok_id h m.id]
  rfl

theorem teams_of_verdict? {m : Match} {r : Result} {v : Verdict} (h : m.verdict? r = some v)
    (hs : v.status = .completed) : m.team1.isNull = false ∧ m.team2.isNull = false := by
  have hj : m.judge m.id r = .ok v := by
    unfold verdict? at h
    cases hj : m.judge m.id r <;> simp_all [Except.toOption]
  obtain ⟨-, -, -, -, -, -, hdone⟩ := judge_eq_ok hj
  obtain ⟨n1, n2, -⟩ := hdone hs
  exact ⟨n1, n2⟩

theorem owed_sides {m₀ m m' : Match} {d : Option Result} {w : Value} (h : m₀.owed m d = some (m', w)) :
    m'.team1 = m.team1 ∧ m'.team2 = m.team2 := by
  cases d with
  | some r =>
    obtain ⟨v, -, hv⟩ := Option.map_eq_some_iff.1 h
    cases hv
    exact ⟨team1_scoredBy _ _ _, team2_scoredBy _ _ _⟩
  | none =>
    obtain ⟨w', -, hw⟩ := Option.map_eq_some_iff.1 h
    cases hw
    exact ⟨rfl, rfl⟩

@[simp] theorem team1_played (m₀ m : Match) (d : Option Result) (pending : Bool) :
    (m₀.played m d pending).team1 = m.team1 := by
  unfold played
  split
  · next h => split <;> exact (owed_sides h).1
  · rfl

@[simp] theorem team2_played (m₀ m : Match) (d : Option Result) (pending : Bool) :
    (m₀.played m d pending).team2 = m.team2 := by
  unfold played
  split
  · next h => split <;> exact (owed_sides h).2
  · rfl

/-- A match still open once the results are played owes nothing: it is the match of the
placed draw with its sides. -/
theorem played_of_open {m₀ m : Match} {d : Option Result}
    (h : (m₀.played m d false).isCompleted = false) :
    m₀.owed m d = none ∧ m₀.played m d false = m₀.withSides m := by
  unfold played at h ⊢
  split at h
  · simp [decidedFor, isCompleted] at h
  · next hn => exact ⟨hn, rfl⟩

theorem isNull_of_freeSide? {m : Match} {side s : Side} (h : m.freeSide? side = some s) :
    m.team1.isNull = true ∨ m.team2.isNull = true := by
  rcases freeSide?_eq_some h with ⟨h1, -⟩ | ⟨-, h2, -⟩ <;> cases side <;>
    simp_all [onSide, Side.other]

/-- A side is known from the team it holds as a multiset, since only null counts as empty. -/
theorem onSide_eq_of_sideOn {m m' : Match} {s : Side} (h : m.sideOn s = m'.sideOn s) :
    m.onSide s = m'.onSide s := by
  unfold sideOn at h
  cases hm : m.onSide s <;> cases hm' : m'.onSide s <;> simp_all [Value.isNull]

end Match

theorem Pending.exists_decide_of_mem {ps : List Pending} {q : Pos}
    (h : q ∈ Pending.decisions ps) : ∃ w, Pending.decide q w ∈ ps := by
  obtain ⟨a, ha, hq⟩ := List.mem_filterMap.1 h
  cases a with
  | seat => cases hq
  | decide p w =>
    cases hq
    exact ⟨w, ha⟩

namespace Bracket

/-- The shape of a draw: everything but its knockout matches, and how many matches each
round has. -/
def frame (b : Bracket) : Bracket :=
  { b with rounds := b.rounds.map fun r => { r with games := r.games.map fun _ => default } }

theorem frame_modifyAt (b : Bracket) (p : Pos) (f : Match → Match) :
    (b.modifyAt p f).frame = b.frame := by
  simp only [frame, modifyAt, Bracket.mk.injEq, and_true, true_and]
  refine List.ext_getElem? fun i => ?_
  simp only [List.getElem?_map, List.getElem?_modify]
  split <;> cases b.rounds[i]? <;> simp

theorem matchAt?_isSome_of_frame {b c : Bracket} (h : b.frame = c.frame) (p : Pos) :
    (b.matchAt? p).isSome = (c.matchAt? p).isSome := by
  have hr := congrArg (fun x : Bracket => (x.rounds[p.round]?).map fun r => r.games.length) h
  simp only [frame, List.getElem?_map, Option.map_map, Function.comp_def, List.length_map] at hr
  simp only [matchAt?]
  cases hb : b.rounds[p.round]? with
  | none =>
    cases hc : c.rounds[p.round]? with
    | none => rfl
    | some rc => simp [hb, hc] at hr
  | some rb =>
    cases hc : c.rounds[p.round]? with
    | none => simp [hb, hc] at hr
    | some rc =>
      simp only [hb, hc, Option.map_some, Option.some.injEq] at hr
      simp only [Option.bind_some]
      by_cases hi : p.index < rb.games.length
      · rw [List.getElem?_eq_getElem hi, List.getElem?_eq_getElem (hr ▸ hi)]
        rfl
      · rw [List.getElem?_eq_none (by omega), List.getElem?_eq_none (by omega)]

theorem positions_eq_of_frame {b c : Bracket} (h : b.frame = c.frame) : b.positions = c.positions := by
  ext p
  rw [mem_positions, mem_positions, matchAt?_isSome_of_frame h]

theorem eq_of_frame {b c : Bracket} (h : b.frame = c.frame) (hg : ∀ p, b.game p = c.game p) :
    b = c := by
  obtain ⟨f, g1, t1, a1, rs, fx, gs, tp, sd, ga⟩ := b
  obtain ⟨f', g1', t1', a1', rs', fx', gs', tp', sd', ga'⟩ := c
  simp only [frame, Bracket.mk.injEq] at h
  obtain ⟨rfl, rfl, rfl, rfl, hrs, rfl, rfl, rfl, rfl, rfl⟩ := h
  simp only [Bracket.mk.injEq, and_true, true_and]
  -- round by round, then match by match
  refine List.ext_getElem? fun i => ?_
  have hr := congrArg (fun l => l[i]?) hrs
  simp only [List.getElem?_map] at hr
  cases hb : rs[i]? <;> cases hc : rs'[i]? <;>
    simp only [hb, hc, Option.map_none, Option.map_some, reduceCtorEq, Option.some.injEq] at hr ⊢
  rename_i rb rc
  obtain ⟨n, nm, gs1, l⟩ := rb
  obtain ⟨n', nm', gs2, l'⟩ := rc
  simp only [Round.mk.injEq] at hr ⊢
  obtain ⟨rfl, rfl, hg', rfl⟩ := hr
  refine ⟨rfl, rfl, List.ext_getElem? fun j => ?_, rfl⟩
  have := hg ⟨i, j⟩
  have hl := congrArg List.length hg'
  simp only [List.length_map] at hl
  simp only [game, matchAt?, hb, hc, Option.bind_some] at this
  by_cases hj : j < gs1.length
  · rw [List.getElem?_eq_getElem hj, List.getElem?_eq_getElem (hl ▸ hj)] at this ⊢
    simpa using this
  · rw [List.getElem?_eq_none (by omega), List.getElem?_eq_none (by omega)]

theorem modifyAt_modifyAt (b : Bracket) (p : Pos) (f g : Match → Match) :
    (b.modifyAt p f).modifyAt p g = b.modifyAt p (g ∘ f) := by
  simp only [modifyAt, List.modify_modify_eq, Function.comp_def]

/-- A result that completes the match at `p` is recorded as one change of that match. -/
theorem scored_overridden_eq (b : Bracket) (p : Pos) (v : Verdict) (r : Result) :
    (if v.overrides r then (b.scored p v).overriddenAt p r.advancing else b.scored p v) =
      b.modifyAt p (·.scoredBy v r) := by
  by_cases ho : v.overrides r
  · simp only [ho, if_true, Match.scoredBy, overriddenAt, scored_eq, modifyAt_modifyAt]
    rfl
  · simp only [ho, Bool.false_eq_true, if_false, Match.scoredBy, scored_eq]

/-- The teams sent onto a side depend only on the matches whose links lead there. -/
theorem inflowOn_congr_feeders {b b' : Bracket} {q : Pos} (hpos : b'.positions = b.positions)
    (hdest : ∀ p k, b'.dest p k = b.dest p k) (harr : ∀ p k, b'.arrival p k = b.arrival p k)
    (hfeed : ∀ p ∈ b.positions, ∀ k, b.dest p k = some q → b'.game p = b.game p) (s : Side) :
    b'.inflowOn q s = b.inflowOn q s := by
  have hsent : ∀ p ∈ b.positions, ∀ k, b'.sentOn p k q s = b.sentOn p k q s := fun p hp k => by
    by_cases hd : b.dest p k = some q
    · simp only [sentOn, sent, harr, hdest, hfeed p hp k hd]
    · simp only [sentOn, sent, harr, hdest, hd, false_and, and_false, if_false]
  rw [inflowOn, inflowOn, hpos]
  exact Finset.sum_congr rfl fun p hp => by rw [hsent p hp, hsent p hp]

/-- The draw `b` is the placed draw `b₀` with the results `D` played, while the cascade owes
`ps`: slotted, of the same shape, links and ids, with the first round as placed, and every
match the placed one with its sides and its result played; each decision owed is the one its
match is owed, and each result passed its match. -/
structure Plays (b₀ : Bracket) (D : Pos → Option Result) (b : Bracket) (ps : List Pending) :
    Prop where
  slotted : Slotted b ps
  frame_eq : b.frame = b₀.frame
  links : ∀ p k, b.dest p k = b₀.dest p k ∧ b.arrival p k = b₀.arrival p k
  locate : ∀ v, b.locate? v = b₀.locate? v
  first : ∀ q ∈ b.positions, q.round = 0 →
    (b.game q).team1 = (b₀.game q).team1 ∧ (b.game q).team2 = (b₀.game q).team2
  games : ∀ q ∈ b.positions,
    b.game q = (b₀.game q).played (b.game q) (D q) (decide (q ∈ Pending.decisions ps))
  owes : ∀ q w, .decide q w ∈ ps → ∃ m', (b₀.game q).owed (b.game q) (D q) = some (m', w)
  judged : ∀ q r, D q = some r →
    ∃ v, ((b₀.game q).withSides (b.game q)).verdict? r = some v ∧ v.status = .completed

namespace Plays

variable {b₀ b c : Bracket} {D : Pos → Option Result} {ps : List Pending} {p q : Pos}

theorem decide_step {w : Value} (h : Plays b₀ D b (.decide p w :: ps)) :
    p ∈ b.positions ∧ Plays b₀ D (b.decideAt p w) (b.seatsAfter p w ++ ps) := by
  obtain ⟨hp, hS⟩ := h.slotted.decide_step
  have hnd := h.slotted.routed.nodup
  rw [Pending.decisions_cons_decide, List.nodup_cons] at hnd
  -- the stack below the decision owes the same decisions, the decided match no longer among them
  have hdec : Pending.decisions (b.seatsAfter p w ++ ps) = Pending.decisions ps := by
    rw [Pending.decisions_append, decisions_seatsAfter, List.nil_append]
  obtain ⟨m', hm'⟩ := h.owes p w List.mem_cons_self
  have hgp : b.game p = m' := by
    have := h.games p hp
    simp only [Pending.decisions_cons_decide, List.mem_cons_self, decide_true] at this
    rw [this, Match.played, hm']
    rfl
  refine ⟨hp, ⟨hS, by rw [decideAt, frame_modifyAt, h.frame_eq], fun p' k => ?_, fun v => ?_,
    fun q hq hr => ?_, fun q hq => ?_, fun q w' hq => ?_, fun q r hr => ?_⟩⟩
  · rw [dest_decideAt, arrival_decideAt]
    exact h.links p' k
  · rw [decideAt, locate?_modifyAt (keepsLinks_decide _ _)]
    exact h.locate v
  · rw [positions_decideAt] at hq
    rw [game_decideAt hp]
    split
    · subst q
      exact h.first p hp hr
    · exact h.first q hq hr
  · rw [positions_decideAt] at hq
    rw [game_decideAt hp]
    split
    · subst q
      rw [Match.played_decidedFor]
      simp only [hdec, hnd.1, decide_false, Match.played, hm', Bool.false_eq_true, if_false]
      rw [hgp]
    · next hne =>
      have := h.games q hq
      simpa only [hdec, Pending.decisions_cons_decide, List.mem_cons, hne, false_or] using this
  · have hq' : .decide q w' ∈ ps := by
      rcases List.mem_append.1 hq with hs | hs
      · have := Pending.mem_decisions_of_mem hs
        rw [decisions_seatsAfter] at this
        cases this
      · exact hs
    have hne : q ≠ p := fun he => hnd.1 (he ▸ Pending.mem_decisions_of_mem hq')
    rw [game_decideAt hp, if_neg hne]
    exact h.owes q w' (List.mem_cons_of_mem _ hq')
  · rw [game_decideAt hp]
    split
    · subst q
      rw [Match.withSides_decidedFor]
      exact h.judged p r hr
    · exact h.judged q r hr

/-- A change of one match beyond the first round, with no result, that keeps the reading at
that match keeps it everywhere. -/
theorem of_change (h : Plays b₀ D b ps) {c : Bracket} {ps' : List Pending}
    (hS : Slotted c ps') (hframe : c.frame = b.frame)
    (hlinks : ∀ p k, c.dest p k = b.dest p k ∧ c.arrival p k = b.arrival p k)
    (hlocate : ∀ v, c.locate? v = b.locate? v)
    (hr : 0 < q.round) (hother : ∀ q', q' ≠ q → c.game q' = b.game q')
    (hdec : ∀ q', q' ≠ q → (q' ∈ Pending.decisions ps' ↔ q' ∈ Pending.decisions ps))
    (hps : ∀ q' w, .decide q' w ∈ ps' → q' ≠ q → .decide q' w ∈ ps)
    (hgame : c.game q = (b₀.game q).played (c.game q) (D q) (decide (q ∈ Pending.decisions ps')))
    (howes : ∀ w, .decide q w ∈ ps' → ∃ m', (b₀.game q).owed (c.game q) (D q) = some (m', w))
    (hD : D q = none) :
    Plays b₀ D c ps' := by
  have hpos := positions_eq_of_frame hframe
  refine ⟨hS, hframe.trans h.frame_eq, fun p k => ?_, fun v => (hlocate v).trans (h.locate v),
    fun q' hq' h0 => ?_, fun q' hq' => ?_, fun q' w hw => ?_, fun q' r hd => ?_⟩
  · rw [(hlinks p k).1, (hlinks p k).2]
    exact h.links p k
  · have hne : q' ≠ q := fun he => by rw [he] at h0; omega
    rw [hother q' hne]
    exact h.first q' (hpos ▸ hq') h0
  · by_cases hne : q' = q
    · subst q'
      exact hgame
    · rw [hother q' hne]
      have := h.games q' (hpos ▸ hq')
      simpa only [hdec q' hne] using this
  · by_cases hne : q' = q
    · subst q'
      exact howes w hw
    · rw [hother q' hne]
      exact h.owes q' w (hps q' w hw hne)
  · have hne : q' ≠ q := fun he => by rw [he, hD] at hd; cases hd
    rw [hother q' hne]
    exact h.judged q' r hd

theorem seat_step {k : Link} {x : Value} (h : Plays b₀ D b (.seat p k x :: ps)) :
    p ∈ b.positions ∧ ∃ q s, b.dest p k = some q ∧
      (b.game q).freeSide? (b.preferred p q) = some s ∧
        Settles (Plays b₀ D) (b.seatAt q x s) q ps := by
  obtain ⟨hp, q, s, hq, hs, hset⟩ := h.slotted.seat_step
  refine ⟨hp, q, s, hq, hs, ?_⟩
  have hw := h.slotted.routed.wired
  have hqpos := mem_positions_of_dest hw hq
  have hr : 0 < q.round := Nat.lt_of_le_of_lt (Nat.zero_le _) (round_lt_of_dest hw hp hq)
  have hfree := Match.isNull_of_freeSide? hs
  have hnull : ∀ v : Value, v ≠ .null → v.isNull = false := fun v hv => by
    cases v <;> simp_all [Value.isNull]
  -- a match with a free side owes no decision, has no result and is the placed match
  have hnd : q ∉ Pending.decisions ps := fun hd => by
    obtain ⟨w, hw'⟩ := Pending.exists_decide_of_mem hd
    obtain ⟨-, n1, n2, -⟩ := h.slotted.routed.decisions q w (List.mem_cons_of_mem _ hw')
    rw [hnull _ n1, hnull _ n2] at hfree
    simp at hfree
  have hD : D q = none := by
    cases hd : D q with
    | none => rfl
    | some r =>
      obtain ⟨v, hv, hvs⟩ := h.judged q r hd
      obtain ⟨n1, n2⟩ := Match.teams_of_verdict? hv hvs
      simp only [Match.team1_withSides, Match.team2_withSides] at n1 n2
      rw [n1, n2] at hfree
      simp at hfree
  have hopen : b.game q = (b₀.game q).withSides (b.game q) := by
    have hg := h.games q hqpos
    simp only [Pending.decisions_cons_seat, hnd, decide_false, hD] at hg
    unfold Match.played Match.owed at hg
    cases hbye : ((b₀.game q).withSides (b.game q)).byeWinner? with
    | none =>
      rw [hbye] at hg
      exact hg
    | some w =>
      obtain ⟨-, n1, n2, -⟩ := Match.byeWinner?_eq_some hbye
      simp only [Match.team1_withSides, Match.team2_withSides] at n1 n2
      rw [hnull _ n1, hnull _ n2] at hfree
      simp at hfree
  have hseated : (b.seatAt q x s).game q = (b₀.game q).withSides ((b.seatAt q x s).game q) := by
    rw [game_seatAt hqpos, if_pos rfl, ← Match.withSides_seatOn, ← hopen]
  have hother : ∀ q', q' ≠ q → (b.seatAt q x s).game q' = b.game q' := fun q' hne => by
    rw [game_seatAt hqpos, if_neg hne]
  have hlinks : ∀ p k, (b.seatAt q x s).dest p k = b.dest p k ∧
      (b.seatAt q x s).arrival p k = b.arrival p k := fun p k =>
    ⟨dest_seatAt x s p k, arrival_seatAt x s p k⟩
  have hlocate : ∀ v, (b.seatAt q x s).locate? v = b.locate? v :=
    locate?_modifyAt (keepsLinks_seat x s)
  unfold Settles at hset ⊢
  -- the seated match faces the bye or not; if it does, its decision is owed against the bye
  cases hbye : ((b.seatAt q x s).game q).byeWinner? with
  | none =>
    rw [hbye] at hset
    refine h.of_change hset (frame_modifyAt _ _ _) hlinks hlocate hr hother (fun _ _ => Iff.rfl)
      (fun _ _ hw' _ => List.mem_cons_of_mem _ hw') ?_
      (fun w hw' => absurd (Pending.mem_decisions_of_mem hw') hnd) hD
    simp only [hnd, decide_false, hD, Match.played, Match.owed]
    rw [← hseated, hbye, Option.map_none]
  | some w =>
    rw [hbye] at hset
    have hqpos' : q ∈ (b.seatAt q x s).positions := by rwa [positions_seatAt]
    have hmarked : ((b.seatAt q x s).markAt q).game q =
        { (b.seatAt q x s).game q with autoAdvance := .bool true } := by
      rw [game_markAt hqpos', if_pos rfl]
    have howed : (b₀.game q).owed (((b.seatAt q x s).markAt q).game q) none =
        some (((b.seatAt q x s).markAt q).game q, w) := by
      have hs' : (b₀.game q).withSides (((b.seatAt q x s).markAt q).game q) =
          (b₀.game q).withSides ((b.seatAt q x s).game q) :=
        Match.withSides_congr (by rw [hmarked]) (by rw [hmarked])
      rw [Match.owed, hs', ← hseated, hbye, Option.map_some, hmarked]
    refine h.of_change hset (by rw [markAt, frame_modifyAt, seatAt, frame_modifyAt])
      (fun p k => ?_) (fun v => ?_) hr (fun q' hne => ?_) (fun q' hne => ?_)
      (fun q' w' hw' hne => ?_) ?_ (fun w' hw' => ?_) hD
    · rw [dest_markAt, arrival_markAt]
      exact hlinks p k
    · rw [markAt, locate?_modifyAt keepsLinks_mark]
      exact hlocate v
    · rw [game_markAt hqpos', if_neg hne]
      exact hother q' hne
    · simp only [Pending.decisions_cons_decide, Pending.decisions_cons_seat, List.mem_cons, hne,
        false_or]
    · rcases List.mem_cons.1 hw' with he | hw'
      · cases he
        exact absurd rfl hne
      · exact List.mem_cons_of_mem _ hw'
    · simp only [hD, Pending.decisions_cons_decide, List.mem_cons_self, decide_true, Match.played,
        howed, if_true]
    · rcases List.mem_cons.1 hw' with he | hw'
      · cases he
        rw [hD]
        exact ⟨_, howed⟩
      · exact absurd (Pending.mem_decisions_of_mem hw') hnd

theorem cascade : Cascade (Plays b₀ D) where
  wired _ _ h := h.slotted.routed.wired
  decide _ _ _ _ h := h.decide_step
  seat _ _ _ _ _ h := h.seat_step

/-- A slotted draw in which no match faces the bye is itself with no result played. -/
theorem start (h : Slotted b []) (hbye : ∀ q ∈ b.positions, (b.game q).byeWinner? = none) :
    Plays b (fun _ => none) b [] where
  slotted := h
  frame_eq := rfl
  links _ _ := ⟨rfl, rfl⟩
  locate _ := rfl
  first _ _ _ := ⟨rfl, rfl⟩
  games q hq := by
    simp only [Match.played, Match.owed, Match.withSides_self, hbye q hq, Option.map_none]
  owes _ _ h := by cases h
  judged _ _ h := by cases h

/-- An open match of a draw with nothing owed has no result yet, and is the placed match with
its sides. -/
theorem open_eq (h : Plays b₀ D b []) (hp : p ∈ b.positions)
    (hopen : (b.game p).isCompleted = false) :
    D p = none ∧ b.game p = (b₀.game p).withSides (b.game p) := by
  have hg := h.games p hp
  simp only [Pending.decisions_nil, List.not_mem_nil, decide_false] at hg
  rw [hg] at hopen
  obtain ⟨hnone, heq⟩ := Match.played_of_open hopen
  refine ⟨?_, hg.trans heq⟩
  cases hd : D p with
  | none => rfl
  | some r =>
    obtain ⟨v, hv, -⟩ := h.judged p r hd
    rw [hd, Match.owed, hv, Option.map_some] at hnone
    cases hnone

/-- Scoring an open match by a result that completes it plays the result there, with the
match's decision owed. -/
theorem scored (h : Plays b₀ D b []) (hp : p ∈ b.positions)
    (hopen : (b.game p).isCompleted = false) {id : Value} {r : Result} {v : Verdict}
    (hj : (b.game p).judge id r = .ok v) (hs : v.status = .completed) :
    Plays b₀ (Function.update D p (some r.settled)) (b.modifyAt p (·.scoredBy v r))
      [.decide p v.winner] := by
  obtain ⟨hD, hsides⟩ := h.open_eq hp hopen
  have hS := h.slotted.scored_open hp hopen hj hs
  rw [scored_overridden_eq] at hS
  have hkeep := Match.keepsLinks_scoredBy v r
  have hgame : ∀ q, (b.modifyAt p (·.scoredBy v r)).game q =
      if q = p then (b.game p).scoredBy v r else b.game q := fun q => by
    rw [game_modifyAt _ _ _ _ hp]
    split
    · next he => rw [he]
    · rfl
  -- the scored match is owed the verdict of the settled result
  have hwith : (b₀.game p).withSides ((b.game p).scoredBy v r) = b.game p := by
    rw [Match.withSides_congr (Match.team1_scoredBy _ _ _) (Match.team2_scoredBy _ _ _), ← hsides]
  have hv : (b.game p).verdict? r.settled = some v :=
    Match.verdict?_of_judge (Match.judge_settled hj hs)
  have howed : (b₀.game p).owed ((b.game p).scoredBy v r) (some r.settled) =
      some ((b.game p).scoredBy v r, v.winner) := by
    rw [Match.owed, hwith, hv, Option.map_some, Match.scoredBy_settled]
  refine ⟨hS, by rw [frame_modifyAt, h.frame_eq], fun p' k => ?_, fun u => ?_,
    fun q hq h0 => ?_, fun q hq => ?_, fun q w hw => ?_, fun q r' hd => ?_⟩
  · rw [dest_modifyAt hkeep, arrival_modifyAt hkeep]
    exact h.links p' k
  · rw [locate?_modifyAt hkeep]
    exact h.locate u
  · rw [positions_modifyAt] at hq
    rw [hgame]
    split
    · next he =>
      subst he
      simpa only [Match.team1_scoredBy, Match.team2_scoredBy] using h.first q hq h0
    · exact h.first q hq h0
  · rw [positions_modifyAt] at hq
    rw [hgame]
    split
    · next he =>
      subst he
      simp only [Function.update_self, Pending.decisions_cons_decide, Pending.decisions_nil,
        List.mem_singleton, decide_true, Match.played, howed, if_true]
    · next hne =>
      have := h.games q hq
      simpa only [Function.update_of_ne hne, Pending.decisions_cons_decide, Pending.decisions_nil,
        List.mem_singleton, hne, List.not_mem_nil] using this
  · obtain ⟨rfl, rfl⟩ := Pending.decide.inj (List.mem_singleton.1 hw)
    rw [hgame, if_pos rfl, Function.update_self]
    exact ⟨_, howed⟩
  · rw [hgame]
    split
    · next he =>
      subst he
      rw [Function.update_self, Option.some.injEq] at hd
      subst hd
      rw [hwith]
      exact ⟨v, hv, hs⟩
    · next hne =>
      rw [Function.update_of_ne hne] at hd
      exact h.judged q r' hd

/-- **Recording a result that completes an open match plays it.** The draw after the request
is the placed draw with the result added, settled, to the results played. -/
theorem record (h : Plays b₀ D b []) {id : Value} {r : Result} {m : Match} {b' : Bracket}
    (hl : b.locate? id = some p) (hopen : (b.game p).isCompleted = false)
    (hrun : Step.exec (Step.record id r) b = (.ok m, b')) (hdone : m.isCompleted = true) :
    D p = none ∧ Plays b₀ (Function.update D p (some r.settled)) b' [] := by
  have hw := h.slotted.routed.wired
  have hp := ((locate?_eq_some_iff hw).1 hl).1
  refine ⟨(h.open_eq hp hopen).1, ?_⟩
  rw [Step.exec_record hw hl] at hrun
  cases hj : (b.game p).judge id r with
  | error e =>
    rw [hj] at hrun
    cases hrun
  | ok v =>
    rw [hj] at hrun
    simp only [hopen, Bool.false_eq_true, if_false] at hrun
    by_cases hs : v.status = .completed
    · rw [if_pos hs, scored_overridden_eq] at hrun
      have h₂ := h.scored hp hopen hj hs
      have hfuel : (b.modifyAt p (·.scoredBy v r)).skeleton.length ≤
          (b.modifyAt p (·.scoredBy v r)).knockoutCount + 1 + p.round := by
        have := h₂.slotted.routed.wired.length_le_knockoutCount
        simp only [skeleton, List.length_map]
        omega
      obtain ⟨b₃, hrun₃, hb₃⟩ := (cascade.withSkeleton _).settle (fun _ _ h => h.2) _ p v.winner _
        [] hfuel ⟨h₂, rfl⟩
      rw [hrun₃] at hrun
      cases hrun
      exact hb₃.1
    · -- a verdict that does not complete the match leaves it open
      rw [if_neg hs, Prod.mk.injEq, Except.ok.injEq] at hrun
      obtain ⟨rfl, -⟩ := hrun
      rw [game_scored hp, if_pos rfl] at hdone
      simp [Match.rescored, Match.isCompleted, hs] at hdone

/-- Two draws with the same results played and nothing owed hold the same match at every
place. By induction on the round: a first-round match has the sides placed, and a side of a
later match holds what the one link arriving there sent, from a match of an earlier round. -/
theorem game_eq (h : Plays b₀ D b []) (h' : Plays b₀ D c []) (q : Pos) : b.game q = c.game q := by
  have hpos : c.positions = b.positions := positions_eq_of_frame (h'.frame_eq.trans h.frame_eq.symm)
  have hw := h.slotted.routed.wired
  induction hn : q.round using Nat.strong_induction_on generalizing q with
  | _ n ih =>
    by_cases hq : q ∈ b.positions
    · have hsides : (c.game q).team1 = (b.game q).team1 ∧ (c.game q).team2 = (b.game q).team2 := by
        rcases Nat.eq_zero_or_pos q.round with h0 | h0
        · obtain ⟨h1, h2⟩ := h.first q hq h0
          obtain ⟨h1', h2'⟩ := h'.first q (hpos ▸ hq) h0
          exact ⟨h1'.trans h1.symm, h2'.trans h2.symm⟩
        · have hin : ∀ s, c.inflowOn q s = b.inflowOn q s :=
            inflowOn_congr_feeders hpos
              (fun p k => (h'.links p k).1.trans (h.links p k).1.symm)
              (fun p k => (h'.links p k).2.trans (h.links p k).2.symm)
              (fun p hp k hd => (ih p.round (hn ▸ round_lt_of_dest hw hp hd) p rfl).symm)
          have hside : ∀ s, (c.game q).sideOn s = (b.game q).sideOn s := fun s => by
            have e := h.slotted.exact q hq h0 s
            have e' := h'.slotted.exact q (hpos ▸ hq) h0 s
            rw [owedOn_nil, add_zero] at e e'
            rw [e, e', hin s]
          exact ⟨Match.onSide_eq_of_sideOn (s := .first) (hside .first),
            Match.onSide_eq_of_sideOn (s := .second) (hside .second)⟩
      have hg := h.games q hq
      have hg' := h'.games q (hpos ▸ hq)
      simp only [Pending.decisions_nil, List.not_mem_nil, decide_false] at hg hg'
      calc b.game q = (b₀.game q).played (b.game q) (D q) false := hg
        _ = (b₀.game q).played (c.game q) (D q) false :=
          (Match.played_congr hsides.1 hsides.2 _ _).symm
        _ = c.game q := hg'.symm
    · -- outside the draw both hold the default match
      have hnone : ∀ x : Bracket, q ∉ x.positions → x.matchAt? q = none := fun x hx =>
        Option.not_isSome_iff_eq_none.1 fun h' => hx (mem_positions.2 h')
      rw [game, game, hnone b hq, hnone c (hpos ▸ hq)]

/-- **A played draw is fixed by its results.** Two draws that are the same placed draw with
the same results played, with nothing owed, are equal. -/
theorem eq_of_plays (h : Plays b₀ D b []) (h' : Plays b₀ D c []) : b = c :=
  eq_of_frame (h.frame_eq.trans h'.frame_eq.symm) (h.game_eq h')

end Plays

end Bracket

end TournamentDraw
