import TournamentDraw.Proofs.Recorded
import TournamentDraw.Proofs.Placing

/-!
# The result fields of a recorded match

Recording a result sets four result fields of its match: the winner, the loser, the team
marked as set by hand and whether it is marked. The knockout path and the fixture path (group,
league and round-robin matches) set them differently.

A knockout match takes its old result back before the new one is set, so in a reachable draw
the four fields follow from the verdict and the match's teams alone
(`recorded_result_fields`, first part). A fixture keeps whatever the new result does not
overwrite: it gets a winner only once completed, a loser only when that winner is a true value,
and its marks by hand never change (second part). So a fixture corrected to a level score keeps
the loser of its old result (`level_correction_keeps_loser`).
-/

namespace TournamentDraw

namespace Bracket

variable {b : Bracket}

/-- Every place a competition lists holds the match listed with it. -/
theorem get?_of_mem_places {x : MatchRef × Match} (hx : x ∈ b.places) : b.get? x.1 = some x.2 := by
  simp only [places, List.mem_append, List.mem_map, List.mem_flatMap] at hx
  rcases hx with (⟨⟨p, m⟩, hm, rfl⟩ | ⟨⟨m, i⟩, hm, rfl⟩) | ⟨⟨⟨l, ms⟩, g⟩, hg, ⟨m, i⟩, hm, rfl⟩
  · exact mem_knockoutPlaces.1 hm
  · exact List.mem_zipIdx_iff_getElem?.1 hm
  · show (b.groups[g]?).bind (fun x => x.2[i]?) = some m
    rw [List.mem_zipIdx_iff_getElem?.1 hg]
    exact List.mem_zipIdx_iff_getElem?.1 hm

theorem get?_of_findRef? {id : Value} {ref : MatchRef} (h : b.findRef? id = some ref) :
    ∃ m, b.get? ref = some m := by
  obtain ⟨x, hx, rfl⟩ := Option.map_eq_some_iff.1 h
  exact ⟨x.2, get?_of_mem_places (List.mem_of_find?_eq_some hx)⟩

/-- Changing the match at a reference changes what is read there, and only by the change. -/
theorem get?_modify_self (f : Match → Match) (ref : MatchRef) :
    (b.modify f ref).get? ref = (b.get? ref).map f := by
  cases ref with
  | knockout p =>
    show (b.modifyAt p f).matchAt? p = _
    rw [matchAt?_modifyAt, if_pos rfl]
    rfl
  | fixture i => exact List.getElem?_modify_eq f i b.fixtures
  | group g i =>
    show ((b.groups.modify g fun x => (x.1, x.2.modify i f))[g]?).bind (fun x => x.2[i]?) =
      ((b.groups[g]?).bind fun x => x.2[i]?).map f
    rw [List.getElem?_modify_eq]
    cases b.groups[g]? with
    | none => rfl
    | some x => exact List.getElem?_modify_eq f i x.2

end Bracket

namespace Step

/-- Checking that the knockout ids can be keys changes nothing: it goes through or is
refused with the competition as it was. -/
theorem exec_knockoutKeys_cases (b : Bracket) :
    (∃ e, exec knockoutKeys b = (.error e, b)) ∨ exec knockoutKeys b = (.ok (), b) := by
  have hkey : ∀ v : Value, (∃ e, exec (keyable v) b = (.error e, b)) ∨
      exec (keyable v) b = (.ok (), b) := by
    intro v
    cases v <;> first | exact .inr rfl | exact .inl ⟨_, rfl⟩
  have hloop : ∀ l : List (Pos × Match),
      (∃ e, exec (forIn l PUnit.unit fun x (_ : PUnit) => do
        keyable x.2.id
        pure (ForInStep.yield PUnit.unit)) b = (.error e, b)) ∨
      exec (forIn l PUnit.unit fun x (_ : PUnit) => do
        keyable x.2.id
        pure (ForInStep.yield PUnit.unit)) b = (.ok PUnit.unit, b) := by
    intro l
    induction l with
    | nil => exact .inr rfl
    | cons x xs ih =>
      obtain ⟨q, m⟩ := x
      rw [List.forIn_cons, exec_bind, exec_bind]
      rcases hkey m.id with ⟨e, he⟩ | he
      · exact .inl ⟨e, by rw [he]⟩
      · rw [he]
        exact ih
  unfold knockoutKeys
  rw [exec_bind_of_ok (exec_get b), exec_bind]
  rcases hloop b.knockoutPlaces with ⟨e, he⟩ | he
  · exact .inl ⟨e, by rw [he]⟩
  · rw [he]
    exact .inr rfl

/-- Asking whether an id is a knockout id changes nothing, and the answer is whether a
knockout match has it. -/
theorem exec_isKnockout_of_ok {b b' : Bracket} {id : Value} {x : Bool}
    (h : exec (isKnockout id) b = (.ok x, b')) : x = (b.locate? id).isSome ∧ b' = b := by
  unfold isKnockout at h
  rw [exec_bind] at h
  rcases exec_knockoutKeys_cases b with ⟨e, he⟩ | he
  · rw [he] at h
    cases h
  rw [he] at h
  dsimp only at h
  rw [exec_bind] at h
  cases hv : id with
  | list _ | obj _ =>
    rw [hv] at h
    cases h
  | null | bool _ | int _ | float _ | str _ =>
    rw [hv] at h
    cases h
    exact ⟨rfl, rfl⟩

end Step

namespace Match

/-- A fixture with the result `r` recorded, in the state `st` and with `byScore` the winner by
the scores: the merged scores and the state are set and, once completed, the team going through
is the winner and, if it is a true value, the other team the loser. What the result does not
set stays as it was, the marks by hand among it. -/
def fixtureRecorded (m : Match) (r : Result) (st : Status) (byScore : Value) : Match :=
  let w := if r.advancing.truthy then r.advancing else byScore
  let m₁ : Match :=
    { m with score1 := Step.mergedScore r.score1 m.score1,
             score2 := Step.mergedScore r.score2 m.score2, status := st }
  if st = .completed then
    { m₁ with winner := w, loser := if w.truthy then m.loserFor w else m.loser }
  else m₁

variable {m : Match} {r : Result} {st : Status} {byScore : Value}

@[simp] theorem fixtureRecorded_status : (m.fixtureRecorded r st byScore).status = st := by
  unfold fixtureRecorded
  by_cases hc : st = .completed <;> simp [hc]

@[simp] theorem fixtureRecorded_winner :
    (m.fixtureRecorded r st byScore).winner =
      if st = .completed then (if r.advancing.truthy then r.advancing else byScore)
      else m.winner := by
  unfold fixtureRecorded
  by_cases hc : st = .completed <;> simp [hc]

@[simp] theorem fixtureRecorded_loser :
    (m.fixtureRecorded r st byScore).loser =
      if st = .completed ∧ (if r.advancing.truthy then r.advancing else byScore).truthy = true
      then m.loserFor (if r.advancing.truthy then r.advancing else byScore)
      else m.loser := by
  unfold fixtureRecorded
  by_cases hc : st = .completed <;> simp [hc]

@[simp] theorem fixtureRecorded_manualWinner :
    (m.fixtureRecorded r st byScore).manualWinner = m.manualWinner := by
  unfold fixtureRecorded
  by_cases hc : st = .completed <;> simp [hc]

@[simp] theorem fixtureRecorded_manualOverride :
    (m.fixtureRecorded r st byScore).manualOverride = m.manualOverride := by
  unfold fixtureRecorded
  by_cases hc : st = .completed <;> simp [hc]

end Match

namespace Step

/-- **What recording a result does to a fixture.** A result that goes through for an id that
no knockout match has, naming the fixture `m` at `ref`, sets its state and its winner by the
scores as their checks answer, and returns the fixture as `Match.fixtureRecorded` gives it. -/
theorem exec_record_fixture {b b' : Bracket} {id : Value} {r : Result} {ref : MatchRef}
    {m m' : Match} (href : b.findRef? id = some ref) (hm : b.get? ref = some m)
    (hl : b.locate? id = none) (hrun : exec (record id r) b = (.ok m', b')) :
    ∃ st byScore,
      outcome (resultStatus m r (mergedScore r.score1 m.score1) (mergedScore r.score2 m.score2)) =
        .ok st ∧
      outcome (scoreWinner m (mergedScore r.score1 m.score1) (mergedScore r.score2 m.score2)) =
        .ok byScore ∧
      m' = m.fixtureRecorded r st byScore := by
  have hget : (b.get? ref).getD default = m := by rw [hm]; rfl
  unfold record at hrun
  simp only [exec_bind, exec_get, href, hget] at hrun
  rcases hk : exec (isKnockout id) b with ⟨_ | x, b₁⟩
  · rw [hk] at hrun
    cases hrun
  obtain ⟨rfl, hb₁⟩ := exec_isKnockout_of_ok hk
  simp only [hk, hl, Option.isSome_none, Bool.false_eq_true, false_and, if_false] at hrun
  rw [hb₁] at hrun
  by_cases hplay : (!r.advancing.isNull) = true ∧ (!m.plays r.advancing) = true
  · simp only [hplay, and_self, if_true, exec_bind, exec_throw] at hrun
    cases hrun
  simp only [hplay, if_false, exec_bind, stateless_resultStatus _ _ _ _ b] at hrun
  cases hst : outcome (resultStatus m r (mergedScore r.score1 m.score1)
    (mergedScore r.score2 m.score2)) with
  | error e =>
    simp only [hst] at hrun
    cases hrun
  | ok st =>
  simp only [hst, stateless_scoreWinner _ _ _ b] at hrun
  cases hsw : outcome (scoreWinner m (mergedScore r.score1 m.score1)
    (mergedScore r.score2 m.score2)) with
  | error e =>
    simp only [hsw] at hrun
    cases hrun
  | ok w =>
  refine ⟨st, w, rfl, rfl, ?_⟩
  by_cases hc : st = .completed
  · simp only [hsw, hc, exec_updateRef, ne_eq, not_true_eq_false, if_false, Bool.not_false,
      if_true, exec_bind, exec_matchOf, Bracket.get?_modify_self, hm, Option.map_some,
      Option.getD_some, Prod.mk.injEq, Except.ok.injEq] at hrun
    rw [← hrun.1, Match.fixtureRecorded, if_pos hc, hc]
    rfl
  · simp only [hsw, hc, exec_updateRef, ne_eq, not_false_eq_true, if_true, exec_matchOf,
      Bracket.get?_modify_self, hm, Option.map_some, Option.getD_some, Prod.mk.injEq,
      Except.ok.injEq] at hrun
    rw [← hrun.1, Match.fixtureRecorded, if_neg hc]

end Step

/-- **The result fields of a recorded match.** Take a result that goes through. If its id
names the knockout match at `p` of a reachable draw, the result sets the match's state and its
four result fields from the verdict and the match's teams alone: the winner and the other team
as loser once completed, nothing before; and a team named against the scores marked as set by
hand, no mark otherwise. If its id names a fixture `m` and no knockout match, the state, the
winner by the scores and the team going through `w` come from the result as for a knockout
match, but the fixture gets the winner `w` only once completed and the loser only when `w` is a
true value, keeping its old winner or loser otherwise; its marks by hand never change. -/
theorem recorded_result_fields {b b' : Bracket} {id : Value} {r : Result} {m' : Match}
    (hrun : Step.exec (Step.record id r) b = (.ok m', b')) :
    (∀ (ids : List String) (p : Pos), Reachable ids b → b.locate? id = some p →
      ∃ v, (b.game p).judge id r = .ok v ∧ m'.status = v.status ∧
        m'.winner = (if v.status = .completed then v.winner else .null) ∧
        m'.loser = (if v.status = .completed then (b.game p).loserFor v.winner else .null) ∧
        m'.manualWinner =
          (if v.status = .completed ∧ v.overrides r = true then r.advancing else .null) ∧
        m'.manualOverride =
          (if v.status = .completed ∧ v.overrides r = true then .bool true else .bool false)) ∧
    (∀ (ref : MatchRef) (m : Match),
      b.findRef? id = some ref → b.get? ref = some m → b.locate? id = none →
      ∃ st byScore w,
        Step.outcome (Step.resultStatus m r (Step.mergedScore r.score1 m.score1)
          (Step.mergedScore r.score2 m.score2)) = .ok st ∧
        Step.outcome (Step.scoreWinner m (Step.mergedScore r.score1 m.score1)
          (Step.mergedScore r.score2 m.score2)) = .ok byScore ∧
        w = (if r.advancing.truthy then r.advancing else byScore) ∧ m'.status = st ∧
        m'.winner = (if st = .completed then w else m.winner) ∧
        m'.loser = (if st = .completed ∧ w.truthy = true then m.loserFor w else m.loser) ∧
        m'.manualWinner = m.manualWinner ∧ m'.manualOverride = m.manualOverride) := by
  constructor
  · intro ids p h hl
    obtain ⟨v, hj, rfl⟩ := h.record_recorded hl hrun
    exact ⟨v, hj, by simp, by simp, by simp, by simp, by simp⟩
  · intro ref m href hm hl
    obtain ⟨st, byScore, hst, hsw, rfl⟩ := Step.exec_record_fixture href hm hl hrun
    exact ⟨st, byScore, _, hst, hsw, rfl, by simp, by simp, by simp, by simp, by simp⟩

/-- A round robin of one fixture, `a` against `b`. -/
def levelFixture : Bracket :=
  { format := .roundRobin,
    fixtures := [{ id := .str "m1", round := .int 1, number := .int 1, team1 := .str "a",
                   team2 := .str "b" }] }

/-- Both parts apply: to the first match of a two-team draw, and to the one fixture of a round
robin. -/
theorem result_fields_two_runs :
    (∃ b m' b', Reachable ["a", "b"] b ∧ b.locate? (.str "match_1") = some ⟨0, 0⟩ ∧
      Step.exec (Step.record (.str "match_1") { score1 := .int 2, score2 := .int 1 }) b =
        (.ok m', b') ∧
      ∃ v, (b.game ⟨0, 0⟩).judge (.str "match_1") { score1 := .int 2, score2 := .int 1 } =
        .ok v ∧ m'.winner = (if v.status = .completed then v.winner else .null)) ∧
    (∃ m m' b', levelFixture.findRef? (.str "m1") = some (.fixture 0) ∧
      levelFixture.get? (.fixture 0) = some m ∧ levelFixture.locate? (.str "m1") = none ∧
      Step.exec (Step.record (.str "m1") { score1 := .int 1 }) levelFixture = (.ok m', b') ∧
      m'.manualWinner = m.manualWinner) := by
  constructor
  · have hk : Shape.ceilLog2 2 = 1 :=
      Shape.ceilLog2_eq_of_bounds (by decide) (by decide) (by decide) (by decide)
    have hb : Generate.build .singleElimination { teams := 2 } =
        .ok (Generate.singleDraw 1 0 false (.bool false) .null) := by
      have h2 : (2 : Int).toNat = 2 := rfl
      rw [Generate.build, Generate.singleElimination_int (by decide)]
      dsimp only
      rw [h2, hk]
      rfl
    have h : Reachable ["a", "b"] _ := Reachable.seeded .singleElimination { teams := 2 }
      ⟨by decide, by decide, by decide⟩ (.inl rfl) rfl hb
    have hok : (Step.exec (Step.record (.str "match_1") { score1 := .int 2, score2 := .int 1 })
        (Step.exec (Step.placeTeams (["a", "b"].map .str))
          (Generate.singleDraw 1 0 false (.bool false) .null)).2).1.toBool = true := by decide
    have hl : (Step.exec (Step.placeTeams (["a", "b"].map .str))
        (Generate.singleDraw 1 0 false (.bool false) .null)).2.locate? (.str "match_1") =
          some ⟨0, 0⟩ := by decide
    generalize hrun : Step.exec (Step.record (.str "match_1") { score1 := .int 2, score2 := .int 1 })
      (Step.exec (Step.placeTeams (["a", "b"].map .str))
        (Generate.singleDraw 1 0 false (.bool false) .null)).2 = out at hok
    obtain ⟨_ | m', b'⟩ := out
    · cases hok
    obtain ⟨v, hj, -, hw, -⟩ := (recorded_result_fields hrun).1 _ _ h hl
    exact ⟨_, m', b', h, hl, hrun, v, hj, hw⟩
  · have hok : (Step.exec (Step.record (.str "m1") { score1 := .int 1 }) levelFixture).1.toBool =
        true := by decide
    generalize hrun : Step.exec (Step.record (.str "m1") { score1 := .int 1 }) levelFixture = out
      at hok
    obtain ⟨_ | m', b'⟩ := out
    · cases hok
    have hm : levelFixture.get? (.fixture 0) = some (levelFixture.fixtures.getD 0 default) := rfl
    obtain ⟨-, -, -, -, -, -, -, -, -, hmw, -⟩ :=
      (recorded_result_fields hrun).2 _ _ (by decide) hm (by decide)
    exact ⟨_, m', b', by decide, hm, by decide, rfl, hmw⟩

/-- **A fixture corrected to a level score keeps its old loser.** Recorded as `2-1` the fixture
is won by `a` over `b`; corrected to `1-1` by giving the first score alone, it is completed with
no winner but still has `b` as its loser, where the same `1-1` recorded on the fresh fixture
leaves no loser. -/
theorem level_correction_keeps_loser :
    ∃ m₁ b₁ m₂ b₂ m₃ b₃,
      Step.exec (Step.record (.str "m1") { score1 := .int 2, score2 := .int 1 }) levelFixture =
        (.ok m₁, b₁) ∧ m₁.winner = .str "a" ∧ m₁.loser = .str "b" ∧
      Step.exec (Step.record (.str "m1") { score1 := .int 1 }) b₁ = (.ok m₂, b₂) ∧
        m₂.status = .completed ∧ m₂.winner = .null ∧ m₂.loser = .str "b" ∧
      Step.exec (Step.record (.str "m1") { score1 := .int 1, score2 := .int 1 }) levelFixture =
        (.ok m₃, b₃) ∧ m₃.status = .completed ∧ m₃.winner = .null ∧ m₃.loser = .null := by
  have h₁ : ((Step.exec (Step.record (.str "m1") { score1 := .int 2, score2 := .int 1 })
      levelFixture).1.toOption.any fun m =>
        (Value.str "a").eqv m.winner && (Value.str "b").eqv m.loser) = true := by decide
  have h₂ : ((Step.exec (Step.record (.str "m1") { score1 := .int 1 })
      (Step.exec (Step.record (.str "m1") { score1 := .int 2, score2 := .int 1 })
        levelFixture).2).1.toOption.any fun m =>
        m.isCompleted && Value.null.eqv m.winner && (Value.str "b").eqv m.loser) = true := by
    decide
  have h₃ : ((Step.exec (Step.record (.str "m1") { score1 := .int 1, score2 := .int 1 })
      levelFixture).1.toOption.any fun m =>
        m.isCompleted && Value.null.eqv m.winner && Value.null.eqv m.loser) = true := by decide
  generalize Step.exec (Step.record (.str "m1") { score1 := .int 2, score2 := .int 1 })
    levelFixture = x₁ at h₁ h₂
  obtain ⟨_ | m₁, b₁⟩ := x₁
  · cases h₁
  generalize hx₂ : Step.exec (Step.record (.str "m1") { score1 := .int 1 }) b₁ = x₂ at h₂
  obtain ⟨_ | m₂, b₂⟩ := x₂
  · cases h₂
  generalize Step.exec (Step.record (.str "m1") { score1 := .int 1, score2 := .int 1 })
    levelFixture = x₃ at h₃
  obtain ⟨_ | m₃, b₃⟩ := x₃
  · cases h₃
  simp only [Except.toOption, Option.any, Bool.and_eq_true, Value.eqv_str_iff,
    Value.eqv_null_iff, Match.isCompleted, beq_iff_eq] at h₁ h₂ h₃
  exact ⟨m₁, b₁, m₂, b₂, m₃, b₃, rfl, h₁.1, h₁.2, hx₂, h₂.1.1, h₂.1.2, h₂.2, rfl, h₃.1.1,
    h₃.1.2, h₃.2⟩

end TournamentDraw
