import TournamentDraw.Proofs.Reachable
import TournamentDraw.Proofs.Placing

/-!
# Correcting a recorded result

A completed knockout match can be given a new result. Its old result is taken back first: the
winner and the loser are taken out of the matches their links lead to. That is refused as soon
as one of those follow-up matches is completed, and the refusal names the first of them, the
winner's match before the loser's.

In a reachable draw the follow-ups of a completed match hold its winner and its loser, and a
correction that passes the checks of the result itself is refused exactly when a follow-up is
completed (`correction_refused_iff_follow_up_completed`). Completed means completed in any
way: a follow-up that faced the bye and was decided by the cascade blocks the correction as
well as one whose result was recorded (`bye_completed_follow_up_blocks_correction`).
-/

namespace TournamentDraw

namespace Routed

open TournamentDraw.Bracket

variable {b : Bracket} {p q : Pos} {id : Value} {r : Result} {v : Verdict}

/-- A completed match of a routed draw sends its mover along every link that leads to a
match. -/
theorem moveAlong_of_completed (h : Routed b []) (hp : p ∈ b.positions)
    (hc : (b.game p).isCompleted = true) (k : Link) :
    b.moveAlong p k = (b.dest p k).map fun q => (q, (b.game p).mover k) := by
  unfold moveAlong
  cases hd : b.dest p k with
  | none => simp
  | some q => rw [if_pos ⟨dest_truthy h.wired hd, h.mover_truthy hp hc k⟩]

/-- The moves of a completed match are its movers, each at the match its link leads to. -/
theorem mem_moves_iff (h : Routed b []) (hp : p ∈ b.positions)
    (hc : (b.game p).isCompleted = true) {y : Pos × Value} :
    y ∈ b.moves p ↔ ∃ k, b.dest p k = some y.1 ∧ y.2 = (b.game p).mover k := by
  constructor
  · intro hy
    obtain ⟨k, -, hd, hm⟩ := mem_moves hy
    exact ⟨k, hd, hm⟩
  · rintro ⟨k, hd, hm⟩
    refine List.mem_filterMap.2 ⟨k, by cases k <;> simp, ?_⟩
    rw [moveAlong_of_completed h hp hc, hd, Option.map_some, ← hm]

/-- Nothing blocks taking a completed match back exactly when none of its follow-ups is
completed. -/
theorem blocker?_eq_none_iff (h : Routed b []) (hp : p ∈ b.positions)
    (hc : (b.game p).isCompleted = true) :
    b.blocker? p = none ↔ ∀ k q, b.dest p k = some q → (b.game q).isCompleted = false := by
  unfold blocker?
  rw [List.find?_eq_none]
  constructor
  · intro hnone k q hd
    have hy : (q, (b.game p).mover k) ∈ b.moves p := (mem_moves_iff h hp hc).2 ⟨k, hd, rfl⟩
    simpa using hnone q (List.mem_map_of_mem (f := Prod.fst) hy)
  · intro hopen q hq
    obtain ⟨y, hy, rfl⟩ := List.mem_map.1 hq
    obtain ⟨k, hd, -⟩ := (mem_moves_iff h hp hc).1 hy
    simp [hopen k y.1 hd]

/-- What blocks taking a completed match back is a completed follow-up holding the team the
match sent there. -/
theorem blocker?_eq_some (h : Routed b []) (hp : p ∈ b.positions)
    (hc : (b.game p).isCompleted = true) (hq : b.blocker? p = some q) :
    ∃ k, b.dest p k = some q ∧ (b.game p).mover k ∈ (b.game q).sides ∧
      (b.game q).isCompleted = true := by
  have hfound := List.find?_some hq
  obtain ⟨y, hy, rfl⟩ := List.mem_map.1 (List.mem_of_find?_eq_some hq)
  obtain ⟨k, hd, hm⟩ := (mem_moves_iff h hp hc).1 hy
  -- the mover was taken out of the follow-up's sides when the match was withdrawn
  have htaken : (b.game p).mover k ∈ (takenFrom (b.moves p) y.1 : Multiset Value) := by
    rw [Multiset.mem_coe, takenFrom, List.mem_map]
    exact ⟨y, List.mem_filter.2 ⟨hy, by simp⟩, hm⟩
  have hsides := takenFrom_le_sides h hp (mem_positions_of_dest h.wired hd)
  exact ⟨k, hd, Multiset.mem_of_le hsides htaken, by simpa using hfound⟩

end Routed

/-- **A correction is refused exactly when a follow-up is completed.** In a reachable draw, a
new result for a completed match that passes the checks of the result itself is refused if and
only if a match that one of its links leads to is completed. A refusal leaves the draw as it
was and names the match and a completed follow-up, which holds the winner or the loser the
match sent there. -/
theorem correction_refused_iff_follow_up_completed {ids : List String} {b : Bracket} {id : Value}
    {p : Pos} {r : Result} {v : Verdict} (h : Reachable ids b) (hl : b.locate? id = some p)
    (hc : (b.game p).isCompleted = true) (hj : (b.game p).judge id r = .ok v) :
    ((∃ e b', Step.exec (Step.record id r) b = (.error e, b')) ↔
      ∃ k q, b.dest p k = some q ∧ (b.game q).isCompleted = true) ∧
    ∀ e b', Step.exec (Step.record id r) b = (.error e, b') → b' = b ∧
      ∃ k q, b.dest p k = some q ∧ (b.game p).mover k ∈ (b.game q).sides ∧
        (b.game q).isCompleted = true ∧
        e = .alreadyPlayed (b.game p).id.describe (b.game q).id.describe := by
  have hR := h.routed
  have hp := ((Bracket.locate?_eq_some_iff hR.wired).1 hl).1
  cases hbl : b.blocker? p with
  | some q =>
    obtain ⟨k, hd, hmem, hqc⟩ := hR.blocker?_eq_some hp hc hbl
    have hrun : Step.exec (Step.record id r) b =
        (.error (.alreadyPlayed (b.game p).id.describe (b.game q).id.describe), b) := by
      rw [Step.exec_record hR.wired hl r, hj]
      simp only [hc, if_true, hbl]
    refine ⟨⟨fun _ => ⟨k, q, hd, hqc⟩, fun _ => ⟨_, _, hrun⟩⟩, fun e b' he => ?_⟩
    rw [hrun, Prod.mk.injEq, Except.error.injEq] at he
    obtain ⟨rfl, rfl⟩ := he
    exact ⟨rfl, k, q, hd, hmem, hqc, rfl⟩
  | none =>
    have hopen := (hR.blocker?_eq_none_iff hp hc).1 hbl
    obtain ⟨m, b', hok, -⟩ := hR.record_of_judge hl hj fun _ => hbl
    refine ⟨⟨?_, ?_⟩, fun e b'' he => ?_⟩
    · rintro ⟨e, b'', he⟩
      rw [hok] at he
      cases he
    · rintro ⟨k, q, hd, hqc⟩
      rw [hopen k q hd] at hqc
      cases hqc
    · rw [hok] at he
      cases he

/-- Three teams in single elimination with a match for third place, placed, and the second
match won by its first side: the loser meets the bye in the match for third place, which the
cascade decides. -/
def thirdPlaceRun : Bracket :=
  (Step.exec (Step.record (.str "match_2") { score1 := .int 1, score2 := .int 0 })
    (Step.exec (Step.placeTeams (["a", "b", "c"].map .str))
      (Generate.singleDraw 2 1 true (.bool true) .null)).2).2

theorem reachable_thirdPlaceRun : Reachable ["a", "b", "c"] thirdPlaceRun := by
  have hk : Shape.ceilLog2 3 = 2 :=
    Shape.ceilLog2_eq_of_bounds (by decide) (by decide) (by decide) (by decide)
  have hb : Generate.build .singleElimination { teams := 3, thirdPlace := .bool true } =
      .ok (Generate.singleDraw 2 1 true (.bool true) .null) := by
    have h3 : (3 : Int).toNat = 3 := rfl
    rw [Generate.build, Generate.singleElimination_int (by decide)]
    dsimp only
    rw [h3, hk]
    rfl
  exact .record _ _ (.seeded .singleElimination _ ⟨by decide, by decide, by decide⟩ (.inl rfl)
    rfl hb)

/-- Correcting the second match of the three-team draw to a win for its second side passes the
checks of the result and is refused. -/
theorem correction_refused_three_teams :
    ∃ v, (thirdPlaceRun.game ⟨0, 1⟩).judge (.str "match_2")
        { score1 := .int 0, score2 := .int 1 } = .ok v ∧
      (((∃ e b', Step.exec (Step.record (.str "match_2") { score1 := .int 0, score2 := .int 1 })
          thirdPlaceRun = (.error e, b')) ↔
        ∃ k q, thirdPlaceRun.dest ⟨0, 1⟩ k = some q ∧ (thirdPlaceRun.game q).isCompleted = true) ∧
      ∀ e b', Step.exec (Step.record (.str "match_2") { score1 := .int 0, score2 := .int 1 })
          thirdPlaceRun = (.error e, b') → b' = thirdPlaceRun ∧
        ∃ k q, thirdPlaceRun.dest ⟨0, 1⟩ k = some q ∧
          (thirdPlaceRun.game ⟨0, 1⟩).mover k ∈ (thirdPlaceRun.game q).sides ∧
          (thirdPlaceRun.game q).isCompleted = true ∧
          e = .alreadyPlayed (thirdPlaceRun.game ⟨0, 1⟩).id.describe
            (thirdPlaceRun.game q).id.describe) := by
  have hok : ((thirdPlaceRun.game ⟨0, 1⟩).judge (.str "match_2")
      { score1 := .int 0, score2 := .int 1 }).toBool = true := by decide
  cases hj : (thirdPlaceRun.game ⟨0, 1⟩).judge (.str "match_2")
      { score1 := .int 0, score2 := .int 1 } with
  | error e =>
    rw [hj] at hok
    cases hok
  | ok v =>
    exact ⟨v, rfl, correction_refused_iff_follow_up_completed reachable_thirdPlaceRun
      (by decide) (by decide) hj⟩

/-- **A follow-up decided against the bye blocks a correction.** In the three-team draw the
second match is completed and its new result passes the checks, and no match it sent a team to
has been played: the one its winner went to is open and the one its loser went to was decided
by the cascade. The correction is still refused, naming the match for third place. -/
theorem bye_completed_follow_up_blocks_correction :
    (thirdPlaceRun.game ⟨0, 1⟩).isCompleted = true ∧
      ((thirdPlaceRun.game ⟨0, 1⟩).judge (.str "match_2")
        { score1 := .int 0, score2 := .int 1 }).toBool = true ∧
      (∀ k q, thirdPlaceRun.dest ⟨0, 1⟩ k = some q → (thirdPlaceRun.game q).isCompleted = true →
        (thirdPlaceRun.game q).autoAdvance.truthy = true) ∧
      Step.exec (Step.record (.str "match_2") { score1 := .int 0, score2 := .int 1 })
        thirdPlaceRun = (.error (.alreadyPlayed "match_2" "match_4"), thirdPlaceRun) := by
  refine ⟨by decide, by decide, ?_, ?_⟩
  · intro k q hd hqc
    cases k with
    | next =>
      have hnext : thirdPlaceRun.dest ⟨0, 1⟩ .next = some ⟨1, 0⟩ := by decide
      rw [hnext, Option.some.injEq] at hd
      subst hd
      exact absurd hqc (by decide)
    | loserNext =>
      have hloser : thirdPlaceRun.dest ⟨0, 1⟩ .loserNext = some ⟨2, 0⟩ := by decide
      rw [hloser, Option.some.injEq] at hd
      subst hd
      decide
  · -- the refusal is clean, so only the error has to be computed
    have hclean := (reachable_thirdPlaceRun.routed.record (.str "match_2")
      { score1 := .int 0, score2 := .int 1 }).2.2
    have herr : (match (Step.exec (Step.record (.str "match_2")
        { score1 := .int 0, score2 := .int 1 }) thirdPlaceRun).1 with
      | .error (.alreadyPlayed a c) => decide (a = "match_2" ∧ c = "match_4")
      | _ => false) = true := by decide
    generalize hrun : Step.exec (Step.record (.str "match_2")
      { score1 := .int 0, score2 := .int 1 }) thirdPlaceRun = out at hclean herr ⊢
    obtain ⟨_ | _, b'⟩ := out
    · rename_i e
      obtain ⟨hb', -⟩ := hclean e rfl
      cases e <;> simp at herr
      obtain ⟨rfl, rfl⟩ := herr
      dsimp only at hb'
      rw [hb']
    · cases herr

end TournamentDraw
