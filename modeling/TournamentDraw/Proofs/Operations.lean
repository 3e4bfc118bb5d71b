import TournamentDraw.Proofs.Routing

/-!
# Operations on a routed draw

The routing invariant (`Routed`) is kept by every operation on a knockout draw. Deciding a
match is the cascade of the routing module; this module adds what recording a result does
before it: a completed match whose result is corrected, or reset, first takes its result
back. Its teams leave the matches they moved into (`withdrawn`), which is possible only while
those matches are open (`blocker?`). The balance of seated teams against teams sent survives
because the teams taken out of each match are exactly those the match sent it
(`takenFrom_moves`), and they stood on its sides.

The main results say that recording a result, forcing a winner and resolving the byes keep
the invariant and the skeleton of the draw, and that a request they refuse changes nothing
and is refused for itself (`RefusesCleanly`): never because a match along a link is full, and
as unknown only when its id names no match.
-/

open scoped BigOperators

namespace TournamentDraw

namespace Match

variable {m : Match} {x : Value}

/-- The match with the scores and state of a verdict. -/
def rescored (m : Match) (v : Verdict) : Match :=
  { m with score1 := v.score1, score2 := v.score2, status := v.status }

theorem unseat_eq (m : Match) (x : Value) : m.unseat x =
    if m.team1.eqv x then { m with team1 := .null }
    else if m.team2.eqv x then { m with team2 := .null } else m := rfl

theorem keepsLinks_unseat (x : Value) : KeepsLinks (·.unseat x) := by
  intro m
  dsimp only
  rw [unseat_eq]
  split
  · exact ⟨rfl, rfl, rfl⟩
  · split <;> exact ⟨rfl, rfl, rfl⟩

/-- Taking a team out changes the sides only: the state and the result stay. -/
theorem unseat_result (m : Match) (x : Value) :
    (m.unseat x).isCompleted = m.isCompleted ∧ (m.unseat x).winner = m.winner ∧
      (m.unseat x).loser = m.loser := by
  rw [unseat_eq]
  split
  · exact ⟨rfl, rfl, rfl⟩
  · split <;> exact ⟨rfl, rfl, rfl⟩

theorem unseat_textual (h1 : m.team1.Textual) (h2 : m.team2.Textual) :
    (m.unseat x).team1.Textual ∧ (m.unseat x).team2.Textual := by
  rw [unseat_eq]
  split
  · exact ⟨.inl rfl, h2⟩
  · split
    · exact ⟨h1, .inl rfl⟩
    · exact ⟨h1, h2⟩

/-- Taking out a team that stands on a side empties that side. -/
theorem sides_unseat (h1 : m.team1.Textual) (h2 : m.team2.Textual) (hx : x ∈ m.sides) :
    (m.unseat x).sides + {x} = m.sides := by
  have hmem : (x = m.team1 ∧ m.team1.isNull = false) ∨ (x = m.team2 ∧ m.team2.isNull = false) := by
    unfold sides at hx
    cases h1n : m.team1.isNull <;> cases h2n : m.team2.isNull <;> simp_all
  rw [unseat_eq]
  by_cases e1 : m.team1.eqv x = true
  · rw [if_pos e1]
    have hx1 : x = m.team1 := h1.eqv_iff.1 e1
    have hn : m.team1.isNull = false := by
      rcases hmem with ⟨_, h⟩ | ⟨rfl, h⟩
      · exact h
      · rwa [hx1] at h
    simp [sides, hn, hx1, add_comm]
  · rw [if_neg e1]
    obtain ⟨rfl, hn⟩ : x = m.team2 ∧ m.team2.isNull = false := by
      rcases hmem with ⟨rfl, _⟩ | h
      · exact absurd (h1.eqv_iff.2 rfl) e1
      · exact h
    rw [if_pos (h2.eqv_iff.2 rfl)]
    simp [sides, hn]

/-- Taking teams out one after another, each standing on a side when it is taken. -/
theorem sides_unseatList (xs : List Value) {m : Match} (h1 : m.team1.Textual)
    (h2 : m.team2.Textual) (hxs : (xs : Multiset Value) ≤ m.sides) :
    (xs.foldl unseat m).sides + xs = m.sides ∧
      (xs.foldl unseat m).team1.Textual ∧ (xs.foldl unseat m).team2.Textual := by
  induction xs generalizing m with
  | nil => exact ⟨by simp, h1, h2⟩
  | cons x xs ih =>
    have hx : x ∈ m.sides := Multiset.mem_of_le hxs (Multiset.mem_cons_self x xs)
    have hm := sides_unseat h1 h2 hx
    obtain ⟨t1, t2⟩ := unseat_textual (x := x) h1 h2
    have hm' : m.sides = x ::ₘ (m.unseat x).sides := by
      rw [← hm, add_comm, Multiset.singleton_add]
    have hxs' : (xs : Multiset Value) ≤ (m.unseat x).sides := by
      rw [← Multiset.cons_coe, hm'] at hxs
      exact Multiset.cons_le_cons_iff _ |>.1 hxs
    obtain ⟨hs, t1', t2'⟩ := ih t1 t2 hxs'
    refine ⟨?_, t1', t2'⟩
    rw [List.foldl_cons, ← Multiset.cons_coe, Multiset.add_cons, hs, hm']

theorem unseatList_textual (xs : List Value) {m : Match} (h1 : m.team1.Textual)
    (h2 : m.team2.Textual) :
    (xs.foldl unseat m).team1.Textual ∧ (xs.foldl unseat m).team2.Textual := by
  induction xs generalizing m with
  | nil => exact ⟨h1, h2⟩
  | cons x xs ih =>
    obtain ⟨t1, t2⟩ := unseat_textual (x := x) h1 h2
    exact ih t1 t2

theorem unseatList_result (xs : List Value) (m : Match) :
    (xs.foldl unseat m).isCompleted = m.isCompleted ∧ (xs.foldl unseat m).winner = m.winner ∧
      (xs.foldl unseat m).loser = m.loser := by
  induction xs generalizing m with
  | nil => exact ⟨rfl, rfl, rfl⟩
  | cons x xs ih =>
    obtain ⟨h1, h2, h3⟩ := ih (m.unseat x)
    obtain ⟨u1, u2, u3⟩ := unseat_result m x
    exact ⟨h1.trans u1, h2.trans u2, h3.trans u3⟩

end Match

namespace Bracket

variable {b : Bracket} {p q : Pos}

/-- Take each team of a list back out of the match at its place, in order. -/
def unseatAll (b : Bracket) (l : List (Pos × Value)) : Bracket :=
  l.foldl (fun c x => c.modifyAt x.1 (·.unseat x.2)) b

/-- The teams a list takes out of the match at `q`, in order. -/
def takenFrom (l : List (Pos × Value)) (q : Pos) : List Value :=
  (l.filter (·.1 = q)).map (·.2)

theorem unseatAll_frame (l : List (Pos × Value)) (hw : b.Wired) :
    (b.unseatAll l).Wired ∧ (b.unseatAll l).positions = b.positions ∧
      (∀ p k, (b.unseatAll l).dest p k = b.dest p k) ∧ (b.unseatAll l).skeleton = b.skeleton := by
  induction l generalizing b with
  | nil => exact ⟨hw, rfl, fun _ _ => rfl, rfl⟩
  | cons x l ih =>
    have hx := Match.keepsLinks_unseat x.2
    obtain ⟨hw', hpos, hdest, hsk⟩ := ih (hw.modifyAt hx (p := x.1))
    refine ⟨hw', hpos.trans (positions_modifyAt _ _ _), fun p k => ?_,
      hsk.trans (skeleton_modifyAt hx)⟩
    rw [unseatAll, List.foldl_cons, ← unseatAll, hdest, dest_modifyAt hx]

theorem game_unseatAll (l : List (Pos × Value)) (hl : ∀ x ∈ l, x.1 ∈ b.positions) (q : Pos) :
    (b.unseatAll l).game q = (takenFrom l q).foldl Match.unseat (b.game q) := by
  induction l generalizing b with
  | nil => rfl
  | cons x l ih =>
    have hx := hl x List.mem_cons_self
    rw [unseatAll, List.foldl_cons, ← unseatAll,
      ih fun y hy => (positions_modifyAt b x.1 _).symm ▸ hl y (List.mem_cons_of_mem _ hy),
      game_modifyAt _ _ _ _ hx]
    by_cases hq : q = x.1
    · subst hq
      simp [takenFrom]
    · have : ¬x.1 = q := fun h => hq h.symm
      simp [takenFrom, hq, this]

theorem mem_moves {y : Pos × Value} (hy : y ∈ b.moves p) :
    ∃ k, b.moved p k ∧ b.dest p k = some y.1 ∧ y.2 = (b.game p).mover k := by
  obtain ⟨k, -, hk⟩ := List.mem_filterMap.1 hy
  unfold moveAlong at hk
  split at hk
  · next hm =>
    obtain ⟨q, hq, rfl⟩ := Option.map_eq_some_iff.1 hk
    exact ⟨k, hm, hq, rfl⟩
  · cases hk

theorem takenFrom_moveAlong (hw : b.Wired) (hp : p ∈ b.positions)
    (hres : (b.game p).isCompleted = true ∨
      ((b.game p).winner = .null ∧ (b.game p).loser = .null)) (k : Link) (q : Pos) :
    (takenFrom (b.moveAlong p k).toList q : Multiset Value) = b.sent p k q := by
  unfold moveAlong sent
  by_cases hm : b.moved p k
  · obtain ⟨q', hq'⟩ := dest_of_truthy hw hp hm.1
    have hc : (b.game p).isCompleted = true := by
      rcases hres with hc | hnull
      · exact hc
      · have := hm.2
        cases k <;> simp [Match.mover, hnull, Value.truthy] at this
    by_cases hqq : q' = q
    · subst hqq
      simp [takenFrom, hm, hq', hc, hm.2]
    · simp [takenFrom, hm, hq', hqq]
  · have : ¬(b.dest p k = some q ∧ ((b.game p).mover k).truthy = true) := by
      rintro ⟨hd, ht⟩
      exact hm ⟨dest_truthy hw hd, ht⟩
    simp only [takenFrom, hm, if_false, Option.toList_none, List.filter_nil, List.map_nil,
      Multiset.coe_nil]
    rw [if_neg (fun h => this h.2)]

/-- What withdrawing takes out of the match at `q` is what the match at `p` sent it. -/
theorem takenFrom_moves (hw : b.Wired) (hp : p ∈ b.positions)
    (hres : (b.game p).isCompleted = true ∨
      ((b.game p).winner = .null ∧ (b.game p).loser = .null)) (q : Pos) :
    (takenFrom (b.moves p) q : Multiset Value) = b.sent p .next q + b.sent p .loserNext q := by
  have hsplit : b.moves p = (b.moveAlong p .next).toList ++ (b.moveAlong p .loserNext).toList := by
    simp only [moves, List.filterMap_cons, List.filterMap_nil]
    cases b.moveAlong p .next <;> cases b.moveAlong p .loserNext <;> rfl
  rw [← takenFrom_moveAlong hw hp hres, ← takenFrom_moveAlong hw hp hres, hsplit]
  simp [takenFrom, List.filter_append]

theorem withdrawn_eq (b : Bracket) (p : Pos) :
    b.withdrawn p = (b.unseatAll (b.moves p)).modifyAt p Match.cleared := rfl

theorem scored_eq (b : Bracket) (p : Pos) (v : Verdict) :
    b.scored p v = b.modifyAt p (·.rescored v) := rfl

theorem moves_target (hw : b.Wired) (hp : p ∈ b.positions) {y : Pos × Value}
    (hy : y ∈ b.moves p) : y.1 ∈ b.positions ∧ p.round < y.1.round := by
  obtain ⟨k, -, hd, -⟩ := mem_moves hy
  exact ⟨mem_positions_of_dest hw hd, round_lt_of_dest hw hp hd⟩

theorem takenFrom_eq_nil {l : List (Pos × Value)} (h : ∀ y ∈ l, y.1 ≠ q) :
    takenFrom l q = [] := by
  simp only [takenFrom, List.map_eq_nil_iff, List.filter_eq_nil_iff, decide_eq_true_eq]
  exact h

/-- Teams move on to later rounds only, so nothing is taken from a round up to `p`'s. -/
theorem takenFrom_moves_of_round_le (hw : b.Wired) (hp : p ∈ b.positions)
    (hq : q.round ≤ p.round) : takenFrom (b.moves p) q = [] := by
  refine takenFrom_eq_nil fun y hy he => ?_
  have := (moves_target hw hp hy).2
  rw [he] at this
  omega

/-- A result taken back and replaced by the scores and state of a verdict: the match at `p`
keeps its teams, loses its result and takes the state; the matches its teams moved into lose
those teams; every other match stays. -/
theorem game_reopened (hw : b.Wired) (hp : p ∈ b.positions) (v : Verdict) (q : Pos) :
    ((b.withdrawn p).scored p v).game q =
      if q = p then (b.game p).cleared.rescored v
      else (takenFrom (b.moves p) q).foldl Match.unseat (b.game q) := by
  have hl : ∀ y ∈ b.moves p, y.1 ∈ b.positions := fun y hy => (moves_target hw hp hy).1
  obtain ⟨-, hpos, -, -⟩ := unseatAll_frame (b.moves p) hw
  have hp' : p ∈ (b.unseatAll (b.moves p)).positions := hpos ▸ hp
  have hp'' : p ∈ (b.withdrawn p).positions := by
    rw [withdrawn_eq, positions_modifyAt]
    exact hp'
  rw [scored_eq, game_modifyAt _ _ _ _ hp'']
  split
  · subst q
    rw [withdrawn_eq, game_modifyAt_self _ hp', game_unseatAll _ hl,
      takenFrom_moves_of_round_le hw hp le_rfl]
    rfl
  · next hne =>
    rw [withdrawn_eq, game_modifyAt_ne _ _ hne, game_unseatAll _ hl]

/-- A match with no result moves nobody. -/
theorem moves_eq_nil (hnull : (b.game p).winner = .null ∧ (b.game p).loser = .null) :
    b.moves p = [] := by
  refine List.eq_nil_iff_forall_not_mem.2 fun y hy => ?_
  obtain ⟨k, hm, -, -⟩ := mem_moves hy
  have := hm.2
  cases k <;> simp [Match.mover, hnull, Value.truthy] at this

theorem game_scored (hp : p ∈ b.positions) (v : Verdict) (q : Pos) :
    (b.scored p v).game q = if q = p then (b.game p).rescored v else b.game q := by
  rw [scored_eq, game_modifyAt _ _ _ _ hp]
  split
  · subst q; rfl
  · rfl

/-- Wired draws on one skeleton look every id up at the same place. -/
theorem locate?_eq_of_skeleton {b' : Bracket} (hw : b.Wired) (hw' : b'.Wired)
    (h : b'.skeleton = b.skeleton) (v : Value) : b'.locate? v = b.locate? v :=
  Option.ext fun q => by
    rw [locate?_eq_some_iff hw', locate?_eq_some_iff hw, positions_eq_of_skeleton h,
      game_id_eq_of_skeleton h]

theorem keepsLinks_override (t : Value) :
    Match.KeepsLinks fun m => { m with manualWinner := t, manualOverride := .bool true } :=
  fun _ => ⟨rfl, rfl, rfl⟩

theorem keepsLinks_cleared : Match.KeepsLinks Match.cleared := fun _ => ⟨rfl, rfl, rfl⟩

theorem keepsLinks_rescored (v : Verdict) : Match.KeepsLinks (·.rescored v) :=
  fun _ => ⟨rfl, rfl, rfl⟩

theorem reopened_frame (hw : b.Wired) (p : Pos) (v : Verdict) :
    ((b.withdrawn p).scored p v).Wired ∧ ((b.withdrawn p).scored p v).positions = b.positions ∧
      (∀ p' k, ((b.withdrawn p).scored p v).dest p' k = b.dest p' k) ∧
      ((b.withdrawn p).scored p v).skeleton = b.skeleton := by
  obtain ⟨hw', hpos, hdest, hsk⟩ := unseatAll_frame (b.moves p) hw
  have hc := keepsLinks_cleared
  have hr := keepsLinks_rescored v
  refine ⟨(hw'.modifyAt hc).modifyAt hr, ?_, fun p' k => ?_, ?_⟩
  · rw [scored_eq, positions_modifyAt, withdrawn_eq, positions_modifyAt, hpos]
  · rw [scored_eq, dest_modifyAt hr, withdrawn_eq, dest_modifyAt hc, hdest]
  · rw [scored_eq, skeleton_modifyAt hr, withdrawn_eq, skeleton_modifyAt hc, hsk]

/-- What a match sends reads its state, its result and its links only. -/
theorem sent_eq_of_result {b' : Bracket} {k : Link} (hdest : b'.dest p k = b.dest p k)
    (hc : (b'.game p).isCompleted = (b.game p).isCompleted)
    (hwin : (b'.game p).winner = (b.game p).winner) (hlos : (b'.game p).loser = (b.game p).loser)
    (q : Pos) : b'.sent p k q = b.sent p k q := by
  have hm : (b'.game p).mover k = (b.game p).mover k := by
    cases k
    · exact hwin
    · exact hlos
  simp only [sent, hdest, hc, hm]

end Bracket


namespace Step

theorem resultStatus_error {m : Match} {r : Result} {s1 s2 : Value} {e : BracketError}
    (h : outcome (resultStatus m r s1 s2) = .error e) : ∃ v, e = .unknownStatus v := by
  unfold outcome resultStatus at h
  split at h
  · cases h
  · split at h
    · cases h
    · cases h
      exact ⟨_, rfl⟩
  · cases h
    exact ⟨_, rfl⟩

theorem scoreWinner_error {m : Match} {s1 s2 : Value} {e : BracketError}
    (h : outcome (scoreWinner m s1 s2) = .error e) : ∃ x, e = .operand x := by
  unfold outcome scoreWinner at h
  split at h
  · cases h
  · rw [exec_bind, exec_relate] at h
    cases hr : Value.relate .gt s1 s2 with
    | error x =>
      simp only [hr, Except.mapError] at h
      cases h
      exact ⟨x, rfl⟩
    | ok c =>
      simp only [hr, Except.mapError] at h
      cases c
      · rw [if_neg Bool.false_ne_true, exec_bind, exec_relate] at h
        cases hr' : Value.relate .gt s2 s1 with
        | error x =>
          simp only [hr', Except.mapError] at h
          cases h
          exact ⟨x, rfl⟩
        | ok d => cases d <;> simp [hr', Except.mapError] at h
      · rw [if_pos rfl] at h
        cases h

theorem exec_forceWinner_of_none {b : Bracket} {id : Value} (hw : b.Wired)
    (h : b.locate? id = none) (t : Value) :
    exec (forceWinner id t) b = (.error (.unknownMatch id.describe), b) := by
  have hfind : b.find? id = none := by rw [Bracket.find?_eq hw, h]; rfl
  unfold forceWinner
  simp only [exec_bind, exec_get, hfind]
  rfl

end Step

/-- How a request on `b` about the match `id` may be refused: with the competition as it was,
never because a match along a link is full, and as unknown only when `id` names no match. -/
def RefusesCleanly {α : Type} (b : Bracket) (id : Value) (out : Except BracketError α × Bracket) :
    Prop :=
  ∀ e, out.1 = .error e →
    out.2 = b ∧ (∀ s, e ≠ .full s) ∧ ∀ s, e = .unknownMatch s → b.locate? id = none

/-- A result refused by its own checks is refused for itself: a team that does not play, a
state or score that cannot be read, or a completion the match is not ready for; never for a
full match or a missing one. -/
theorem Match.judge_error {m : Match} {id : Value} {r : Result} {e : BracketError}
    (h : m.judge id r = .error e) : (∀ s, e ≠ .full s) ∧ ∀ s, e ≠ .unknownMatch s := by
  suffices hform : (∃ t i, e = .notPlaying t i) ∨ (∃ v, e = .unknownStatus v) ∨
      (∃ x, e = .operand x) ∨ (∃ i, e = .missingTeams i) ∨ (∃ i, e = .level i) by
    rcases hform with ⟨_, _, rfl⟩ | ⟨_, rfl⟩ | ⟨_, rfl⟩ | ⟨_, rfl⟩ | ⟨_, rfl⟩ <;> simp
  unfold judge at h
  by_cases hplay : (!r.advancing.isNull) = true ∧ (!m.plays r.advancing) = true
  · rw [if_pos hplay] at h
    cases h
    exact .inl ⟨_, _, rfl⟩
  rw [if_neg hplay] at h
  cases hst : Step.outcome (Step.resultStatus m r (Step.mergedScore r.score1 m.score1)
      (Step.mergedScore r.score2 m.score2)) with
  | error e' =>
    simp only [hst] at h
    cases h
    exact .inr (.inl (Step.resultStatus_error hst))
  | ok st =>
  cases hsw : Step.outcome (Step.scoreWinner m (Step.mergedScore r.score1 m.score1)
      (Step.mergedScore r.score2 m.score2)) with
  | error e' =>
    simp only [hst, hsw] at h
    cases h
    exact .inr (.inr (.inl (Step.scoreWinner_error hsw)))
  | ok w =>
  simp only [hst, hsw, bind, Except.bind] at h
  by_cases hc : st = .completed
  · subst hc
    by_cases hm : m.team1.isNull = true ∨ m.team2.isNull = true
    · simp only [if_true, hm] at h
      cases h
      exact .inr (.inr (.inr (.inl ⟨_, rfl⟩)))
    by_cases hl : (if r.advancing.truthy = true then r.advancing else w).isNull = true
    · simp only [if_true, hm, hl, if_false] at h
      cases h
      exact .inr (.inr (.inr (.inr ⟨_, rfl⟩)))
    simp only [if_true, hm, hl, if_false, Bool.false_eq_true, pure, Except.pure] at h
    cases h
  · simp only [hc, if_false, pure, Except.pure] at h
    cases h

namespace Routed

open TournamentDraw.Bracket

variable {b : Bracket} {p q : Pos} {ps : List Pending}

theorem completed_or_unplayed (h : Routed b []) (hp : p ∈ b.positions) :
    (b.game p).isCompleted = true ∨ ((b.game p).winner = .null ∧ (b.game p).loser = .null) := by
  by_cases hc : (b.game p).isCompleted = true
  · exact .inl hc
  · exact .inr (h.unplayed p hp (.inl (by simpa using hc)))

/-- A match moves its teams only into matches that are open, once those it would block on
are. -/
theorem moves_open (h : Routed b []) (hp : p ∈ b.positions)
    (hclear : (b.game p).isCompleted = true → b.blocker? p = none) {y : Pos × Value}
    (hy : y ∈ b.moves p) : (b.game y.1).isCompleted = false := by
  rcases h.completed_or_unplayed hp with hc | hnull
  · have := List.find?_eq_none.1 (hclear hc) y.1 (List.mem_map_of_mem hy)
    simpa using this
  · rw [moves_eq_nil hnull] at hy
    cases hy

/-- The teams taken back out of the match at `q` stand on its sides. -/
theorem takenFrom_le_sides (h : Routed b []) (hp : p ∈ b.positions) (hq : q ∈ b.positions) :
    (takenFrom (b.moves p) q : Multiset Value) ≤ (b.game q).sides := by
  by_cases hr : 0 < q.round
  · have hb := h.balanced q hq hr
    rw [owed_nil, add_zero] at hb
    rw [takenFrom_moves h.wired hp (h.completed_or_unplayed hp), hb, inflow]
    exact Finset.single_le_sum (f := fun p' => b.sent p' .next q + b.sent p' .loserNext q)
      (fun _ _ => Multiset.zero_le _) hp
  · rw [takenFrom_moves_of_round_le h.wired hp (by omega)]
    exact Multiset.zero_le _

theorem sides_reopened (h : Routed b []) (hp : p ∈ b.positions) (v : Verdict)
    (hq : q ∈ b.positions) :
    (((b.withdrawn p).scored p v).game q).sides + takenFrom (b.moves p) q = (b.game q).sides := by
  rw [game_reopened h.wired hp]
  split
  · subst q
    rw [takenFrom_moves_of_round_le h.wired hp le_rfl]
    simp only [Multiset.coe_nil, add_zero]
    rfl
  · exact (Match.sides_unseatList _ (h.textual q hq).1 (h.textual q hq).2
      (h.takenFrom_le_sides hp hq)).1

theorem inflow_reopened (h : Routed b []) (hp : p ∈ b.positions) (v : Verdict) (q : Pos) :
    ((b.withdrawn p).scored p v).inflow q + takenFrom (b.moves p) q = b.inflow q := by
  obtain ⟨-, hpos, hdest, -⟩ := reopened_frame h.wired p v
  have hsent : ∀ x, x ≠ p → ∀ k,
      ((b.withdrawn p).scored p v).sent x k q = b.sent x k q := by
    intro x hx k
    have hg := game_reopened h.wired hp v x
    rw [if_neg hx] at hg
    obtain ⟨hc, hwin, hlos⟩ := Match.unseatList_result (takenFrom (b.moves p) x) (b.game x)
    exact sent_eq_of_result (hdest x k) (hg ▸ hc) (hg ▸ hwin) (hg ▸ hlos) q
  have hnull : (((b.withdrawn p).scored p v).game p).winner = .null ∧
      (((b.withdrawn p).scored p v).game p).loser = .null := by
    rw [game_reopened h.wired hp, if_pos rfl]
    exact ⟨rfl, rfl⟩
  have := sum_add_eq_of_eq_off
    (f := fun x => ((b.withdrawn p).scored p v).sent x .next q +
      ((b.withdrawn p).scored p v).sent x .loserNext q)
    (g := fun x => b.sent x .next q + b.sent x .loserNext q) hp
    fun x _ hx => by rw [hsent x hx, hsent x hx]
  rw [sent_of_null hnull, sent_of_null hnull, add_zero, add_zero,
    ← takenFrom_moves h.wired hp (h.completed_or_unplayed hp)] at this
  rw [inflow, inflow, hpos, this]

/-- Nothing is taken from a completed match: the moves of a result that can be taken back
all lead into open matches. -/
theorem takenFrom_of_completed (h : Routed b []) (hp : p ∈ b.positions)
    (hclear : (b.game p).isCompleted = true → b.blocker? p = none)
    (hq : (b.game q).isCompleted = true) : takenFrom (b.moves p) q = [] := by
  refine takenFrom_eq_nil fun y hy he => ?_
  have := h.moves_open hp hclear hy
  rw [he, hq] at this
  cases this

/-- **Taking a result back and scoring it again keeps the routing invariant.** When the
matches that a completed match sent its teams into are all still open, its result can be
taken back: the draw scored anew is routed, and owes the decision of the match for `w` exactly
when the new state completes it. -/
theorem reopened (h : Routed b []) (hp : p ∈ b.positions)
    (hclear : (b.game p).isCompleted = true → b.blocker? p = none) (v : Verdict) {w : Value}
    (hwin : v.status = .completed → (b.game p).team1 ≠ .null ∧ (b.game p).team2 ≠ .null ∧
      (w = (b.game p).team1 ∨ w = (b.game p).team2)) :
    Routed ((b.withdrawn p).scored p v)
      (if v.status = .completed then [.decide p w] else []) := by
  obtain ⟨hw', hpos, -, -⟩ := reopened_frame h.wired p v
  have hgp := game_reopened h.wired hp v p
  rw [if_pos rfl] at hgp
  -- the only decision owed is that of `p`, and only once the new state completes it
  have hdec : ∀ q, q ∈ Pending.decisions
      (if v.status = .completed then [.decide p w] else []) → q = p := by
    intro q hq
    split at hq <;> simp at hq
    exact hq
  constructor
  case wired => exact hw'
  case textual =>
    intro q hq
    rw [hpos] at hq
    rw [game_reopened h.wired hp]
    split
    · subst q
      exact h.textual p hp
    · exact Match.unseatList_textual _ (h.textual q hq).1 (h.textual q hq).2
  case decided =>
    intro q hq hc hnd
    rw [hpos] at hq
    by_cases hqp : q = p
    · subst q
      rw [hgp] at hc
      have hs : v.status = .completed := by simpa [Match.isCompleted, Match.rescored] using hc
      rw [if_pos hs] at hnd
      simp at hnd
    · have hg := game_reopened h.wired hp v q
      rw [if_neg hqp] at hg
      have hbc : (b.game q).isCompleted = true := by
        rw [hg, (Match.unseatList_result _ _).1] at hc
        exact hc
      rw [hg, h.takenFrom_of_completed hp hclear hbc]
      exact h.decided q hq hbc (by simp)
  case unplayed =>
    intro q hq hc
    rw [hpos] at hq
    by_cases hqp : q = p
    · subst q
      rw [hgp]
      exact ⟨rfl, rfl⟩
    · have hg := game_reopened h.wired hp v q
      rw [if_neg hqp] at hg
      obtain ⟨hc', hwin', hlos'⟩ := Match.unseatList_result (takenFrom (b.moves p) q) (b.game q)
      have hnc : (b.game q).isCompleted = false := by
        rcases hc with hc | hd
        · rwa [hg, hc'] at hc
        · exact absurd (hdec q hd) hqp
      rw [hg, hwin', hlos']
      exact h.unplayed q hq (.inl hnc)
  case balanced =>
    intro q hq hr
    rw [hpos] at hq
    have howed : ((b.withdrawn p).scored p v).owed
        (if v.status = .completed then [.decide p w] else []) q = 0 := by
      split <;> rfl
    have hb := h.balanced q hq hr
    rw [owed_nil, add_zero] at hb
    rw [howed, add_zero]
    apply add_right_cancel (b := (takenFrom (b.moves p) q : Multiset Value))
    rw [h.sides_reopened hp v hq, h.inflow_reopened hp v q, hb]
  case seats =>
    intro p' k x hx
    split at hx <;> simp at hx
  case decisions =>
    intro p' w' hx
    split at hx
    · next hs =>
      obtain ⟨rfl, rfl⟩ : p' = p ∧ w' = w := by simpa using hx
      rw [hpos, hgp]
      exact ⟨hp, hwin hs⟩
    · simp at hx
  case nodup => split <;> simp
  case first =>
    have hfirst : ((b.withdrawn p).scored p v).firstSides = b.firstSides := by
      unfold firstSides
      rw [hpos]
      refine Finset.sum_congr rfl fun q hq => ?_
      obtain ⟨hq, hr⟩ := Finset.mem_filter.1 hq
      have := h.sides_reopened hp v hq
      rwa [takenFrom_moves_of_round_le h.wired hp (by omega), Multiset.coe_nil,
        add_zero] at this
    rw [hfirst]
    exact h.first

/-- Changing a match in what the invariant does not read keeps it. -/
theorem modifyAt {f : Match → Match} (h : Routed b ps) (hf : Match.KeepsLinks f)
    (hs : ∀ m, (f m).standing = m.standing) (q : Pos) : Routed (b.modifyAt q f) ps :=
  h.congr (h.wired.modifyAt hf) (positions_modifyAt _ _ _) (fun _ _ => dest_modifyAt hf _ _)
    fun p => by
      simp only [game, matchAt?_modifyAt]
      split
      · cases b.matchAt? p with
        | none => rfl
        | some m => exact hs m
      · rfl

/-- Scoring the match at `p` anew, its result taken back first if it had one, keeps the
invariant, with the decision owed when the new state completes the match. -/
theorem rescored (h : Routed b []) (hp : p ∈ b.positions)
    (hclear : (b.game p).isCompleted = true → b.blocker? p = none) (v : Verdict) {w : Value}
    (hwin : v.status = .completed → (b.game p).team1 ≠ .null ∧ (b.game p).team2 ≠ .null ∧
      (w = (b.game p).team1 ∨ w = (b.game p).team2)) :
    Routed ((if (b.game p).isCompleted then b.withdrawn p else b).scored p v)
      (if v.status = .completed then [.decide p w] else []) := by
  have hR := h.reopened hp hclear v hwin
  split
  · exact hR
  · next hc =>
    -- an open match has no result to take back, so scoring it alone reaches the same standing
    have hnull := (h.completed_or_unplayed hp).resolve_left hc
    obtain ⟨-, hpos, hdest, -⟩ := reopened_frame h.wired p v
    refine hR.congr (h.wired.modifyAt (keepsLinks_rescored v))
      ((positions_modifyAt _ _ _).trans hpos.symm)
      (fun p' k => (dest_modifyAt (keepsLinks_rescored v) p' k).trans (hdest p' k).symm)
      fun q => ?_
    rw [game_scored hp, game_reopened h.wired hp]
    split
    · simp only [Match.standing, Match.rescored, Match.cleared, Match.isCompleted, hnull]
    · rw [moves_eq_nil hnull]
      rfl

/-- Deciding the match a routed draw owes runs to the end and leaves the draw routed, on the
same skeleton. -/
theorem settle {w : Value} (h : Routed b [.decide p w]) :
    ∃ b', Step.exec (Step.settle (b.knockoutCount + 1) p w) b = (.ok (), b') ∧ Routed b' [] ∧
      b'.skeleton = b.skeleton := by
  have hfuel : b.skeleton.length ≤ b.knockoutCount + 1 + p.round := by
    have := h.wired.length_le_knockoutCount
    simp only [skeleton, List.length_map]
    omega
  obtain ⟨b', hrun, hb'⟩ :=
    (cascade.withSkeleton b.skeleton).settle (fun _ _ h => h.2) _ p w b [] hfuel ⟨h, rfl⟩
  exact ⟨b', hrun, hb'⟩

/-- A routed draw with nothing owed settles at any place: a place with no match never faces
the bye. -/
theorem settles_any (h : Routed b []) (q : Pos) : Settles Routed b q [] := by
  by_cases hq : q ∈ b.positions
  · exact h.settles hq (by simp)
  · have hn : b.matchAt? q = none :=
      Option.not_isSome_iff_eq_none.1 fun h' => hq (mem_positions.2 h')
    unfold Settles
    rw [game, hn]
    exact h

/-- Resolving the byes leaves a routed draw routed, on the same skeleton. -/
theorem resolveByes (h : Routed b []) :
    ∃ b', Step.exec Step.resolveByes b = (.ok (), b') ∧ Routed b' [] ∧
      b'.skeleton = b.skeleton := by
  obtain ⟨b', hrun, hb'⟩ := Cascade.resolveByes
    (J := fun _ c ps => Routed c ps ∧ c.skeleton = b.skeleton)
    (fun _ => cascade.withSkeleton _) (fun _ _ _ h => h.2)
    (fun x _ _ hx => (hx.1.settles_any x.1).withSkeleton hx.2) ⟨h, rfl⟩
  exact ⟨b', hrun, hb'⟩

theorem overriddenAt (h : Routed b ps) (p : Pos) (t : Value) : Routed (b.overriddenAt p t) ps :=
  h.modifyAt (keepsLinks_override t) (fun _ => rfl) p

/-- A result that passes its checks, on a match whose old result can be taken back, goes
through and keeps the routing invariant and the skeleton. -/
theorem record_of_judge {id : Value} {r : Result} {v : Verdict} (h : Routed b [])
    (hl : b.locate? id = some p) (hj : (b.game p).judge id r = .ok v)
    (hclear : (b.game p).isCompleted = true → b.blocker? p = none) :
    ∃ m b', Step.exec (Step.record id r) b = (.ok m, b') ∧ Routed b' [] ∧
      b'.skeleton = b.skeleton := by
  have hp := ((locate?_eq_some_iff h.wired).1 hl).1
  have hnone : (if (b.game p).isCompleted then b.blocker? p else none) = none := by
    split
    · next hc => exact hclear hc
    · rfl
  have hR := h.rescored hp hclear v (w := v.winner)
    fun hc => Match.judge_winner hj hc (h.textual p hp).1 (h.textual p hp).2
  set B₁ := (if (b.game p).isCompleted then b.withdrawn p else b).scored p v with hB₁
  have hsk₁ : B₁.skeleton = b.skeleton := by
    rw [hB₁]
    split
    · exact (reopened_frame h.wired p v).2.2.2
    · exact skeleton_modifyAt (keepsLinks_rescored v)
  rw [Step.exec_record h.wired hl r, hj]
  dsimp only
  rw [hnone]
  dsimp only
  split
  · next hs =>
    rw [if_pos hs] at hR
    -- a team named against the scores is marked by hand, which the invariant does not read
    have hR₂ : Routed (if v.overrides r then B₁.overriddenAt p r.advancing else B₁)
        [.decide p v.winner] := by
      split
      · exact hR.overriddenAt p r.advancing
      · exact hR
    have hsk₂ : (if v.overrides r then B₁.overriddenAt p r.advancing else B₁).skeleton =
        b.skeleton := by
      split
      · exact (skeleton_modifyAt (keepsLinks_override _)).trans hsk₁
      · exact hsk₁
    obtain ⟨b₃, hrun, hb₃, hsk₃⟩ := hR₂.settle
    rw [hrun]
    exact ⟨_, _, rfl, hb₃, hsk₃.trans hsk₂⟩
  · next hs =>
    rw [if_neg hs] at hR
    exact ⟨_, _, rfl, hR, hsk₁⟩

/-- **Recording a result keeps the routing invariant and the skeleton**, and a refused result
is refused cleanly. -/
theorem record (h : Routed b []) (id : Value) (r : Result) :
    Routed (Step.exec (Step.record id r) b).2 [] ∧
      (Step.exec (Step.record id r) b).2.skeleton = b.skeleton ∧
      RefusesCleanly b id (Step.exec (Step.record id r) b) := by
  cases hl : b.locate? id with
  | none =>
    rw [Step.exec_record_of_none h.wired hl]
    refine ⟨h, rfl, fun e he => ?_⟩
    cases he
    exact ⟨rfl, by simp, fun _ _ => hl⟩
  | some p =>
    have hrecord := Step.exec_record h.wired hl r
    cases hj : (b.game p).judge id r with
    | error e =>
      rw [hj] at hrecord
      rw [hrecord]
      obtain ⟨hf, hu⟩ := Match.judge_error hj
      refine ⟨h, rfl, fun e' he => ?_⟩
      cases he
      exact ⟨rfl, hf, fun s hs => absurd hs (hu s)⟩
    | ok v =>
      cases hbl : (if (b.game p).isCompleted then b.blocker? p else none) with
      | some q =>
        rw [hj] at hrecord
        dsimp only at hrecord
        rw [hbl] at hrecord
        rw [hrecord]
        refine ⟨h, rfl, fun e he => ?_⟩
        cases he
        exact ⟨rfl, by simp, by simp⟩
      | none =>
        have hclear : (b.game p).isCompleted = true → b.blocker? p = none := fun hc => by
          rwa [if_pos hc] at hbl
        obtain ⟨m, b', hrun, hR, hsk⟩ := h.record_of_judge hl hj hclear
        rw [hrun]
        exact ⟨hR, hsk, fun e he => by cases he⟩

/-- **Forcing a winner keeps the routing invariant and the skeleton**, and a refused one is
refused cleanly. -/
theorem forceWinner (h : Routed b []) (id t : Value) :
    Routed (Step.exec (Step.forceWinner id t) b).2 [] ∧
      (Step.exec (Step.forceWinner id t) b).2.skeleton = b.skeleton ∧
      RefusesCleanly b id (Step.exec (Step.forceWinner id t) b) := by
  cases hl : b.locate? id with
  | none =>
    rw [Step.exec_forceWinner_of_none h.wired hl]
    refine ⟨h, rfl, fun e he => ?_⟩
    cases he
    exact ⟨rfl, by simp, fun _ _ => hl⟩
  | some p =>
    rw [Step.exec_forceWinner h.wired hl]
    split
    · obtain ⟨hR, hsk, hclean⟩ := h.record id { advancing := t, status := .str "COMPLETED" }
      generalize Step.exec (Step.record id { advancing := t, status := .str "COMPLETED" }) b = x
        at hR hsk hclean ⊢
      obtain ⟨_ | a, b'⟩ := x
      · exact ⟨hR, hsk, hclean⟩
      · -- the match is still found where it was, and is marked as set by hand
        have hl' : b'.locate? id = some p :=
          (locate?_eq_of_skeleton h.wired hR.wired hsk id).trans hl
        have href : b'.findRef? id = some (.knockout p) := by
          rw [findRef?_eq hR.wired, hl']
          rfl
        dsimp only
        rw [href]
        exact ⟨hR.overriddenAt p t, (skeleton_modifyAt (keepsLinks_override t)).trans hsk,
          fun e he => by cases he⟩
    · refine ⟨h, rfl, fun e he => ?_⟩
      cases he
      exact ⟨rfl, by simp, by simp⟩

end Routed

namespace Flowing

variable {b : Bracket}

/-- A draw in flow with nothing owed settles at any place: a place with no match never faces
the bye. -/
theorem settles_any (h : Flowing b []) (q : Pos) : Settles Flowing b q [] := by
  by_cases hq : q ∈ b.positions
  · exact h.settles hq (by simp)
  · have hn : b.matchAt? q = none :=
      Option.not_isSome_iff_eq_none.1 fun h' => hq (Bracket.mem_positions.2 h')
    unfold Settles
    rw [Bracket.game, hn]
    exact h

/-- Resolving the byes keeps a draw in flow, on the same skeleton, whatever its first round
holds. -/
theorem resolveByes (h : Flowing b []) :
    ∃ b', Step.exec Step.resolveByes b = (.ok (), b') ∧ Flowing b' [] ∧
      b'.skeleton = b.skeleton := by
  obtain ⟨b', hrun, hb'⟩ := Cascade.resolveByes
    (J := fun _ c ps => Flowing c ps ∧ c.skeleton = b.skeleton)
    (fun _ => cascade.withSkeleton _) (fun _ _ _ h => h.2)
    (fun x _ _ hx => (hx.1.settles_any x.1).withSkeleton hx.2) ⟨h, rfl⟩
  exact ⟨b', hrun, hb'⟩

end Flowing

end TournamentDraw
