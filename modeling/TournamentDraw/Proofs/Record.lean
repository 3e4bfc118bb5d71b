import TournamentDraw.Proofs.Cascade

/-!
# Recording a result

What recording a result does to a wired knockout draw, as one equation per operation. The
checks come first and change nothing (`Match.judge`). A decided match is then withdrawn: its
teams are taken back out of the matches they moved into, which is refused once one of those
has been played. Its scores and state are set, and once it is completed its winner is settled
along the links. Forcing a winner records the match as completed for that team and marks it
as set by hand.
-/

namespace TournamentDraw

namespace Value

/-- A value that a team side can hold: null or a non-empty text. -/
def Textual (v : Value) : Prop := v = .null ∨ ∃ s, v = .str s ∧ s ≠ ""

@[simp] theorem isNull_null : Value.null.isNull = true := rfl

theorem eqv_null_iff {v : Value} : Value.null.eqv v = true ↔ v = .null := by
  cases v <;> simp [eqv, numberCmp?, asExtended?]

theorem isNull_of_truthy {v : Value} (h : v.truthy = true) : v.isNull = false := by
  cases v <;> simp_all [truthy, isNull]

theorem Textual.eqv_iff {a v : Value} (ha : a.Textual) : a.eqv v = true ↔ v = a := by
  rcases ha with rfl | ⟨s, rfl, -⟩
  · exact eqv_null_iff
  · exact eqv_str_iff

theorem Textual.truthy_iff {a : Value} (ha : a.Textual) : a.truthy = true ↔ a ≠ .null := by
  rcases ha with rfl | ⟨s, rfl, hs⟩
  · simp [truthy]
  · simpa [truthy_str] using hs

end Value

namespace Match

/-- The match with a team taken back out: the first side that holds it is emptied. -/
def unseat (t : Match) (x : Value) : Match :=
  if t.team1.eqv x then { t with team1 := .null }
  else if t.team2.eqv x then { t with team2 := .null } else t

/-- The match with its result cleared. -/
def cleared (m : Match) : Match :=
  { m with winner := .null, loser := .null, manualWinner := .null, manualOverride := .bool false }

end Match

/-- What a result decides for a knockout match before anything changes: the scores it sets,
the state, the winner by the scores and the team that goes through. -/
structure Verdict where
  score1 : Value
  score2 : Value
  status : Status
  byScore : Value
  winner : Value

/-- Whether a result names a team that goes through against the scores. -/
def Verdict.overrides (v : Verdict) (r : Result) : Bool :=
  !v.byScore.isNull && !r.advancing.isNull && !r.advancing.eqv v.byScore

namespace Bracket

/-- Whether the team on link `k` of the match at `p` moved on: the link and the team are
true values. -/
def moved (b : Bracket) (p : Pos) (k : Link) : Prop :=
  ((b.game p).target k).truthy ∧ ((b.game p).mover k).truthy

instance (b : Bracket) (p : Pos) (k : Link) : Decidable (b.moved p k) :=
  inferInstanceAs (Decidable (_ ∧ _))

/-- The place the team on link `k` of the match at `p` moved into, with the team, if it moved. -/
def moveAlong (b : Bracket) (p : Pos) (k : Link) : Option (Pos × Value) :=
  if b.moved p k then (b.dest p k).map fun q => (q, (b.game p).mover k) else none

/-- The places the winner and then the loser of the match at `p` moved into, each with the
team that moved. -/
def moves (b : Bracket) (p : Pos) : List (Pos × Value) :=
  [Link.next, .loserNext].filterMap (b.moveAlong p)

/-- The first match that a team of the match at `p` moved into and that has been played since. -/
def blocker? (b : Bracket) (p : Pos) : Option Pos :=
  ((b.moves p).map Prod.fst).find? fun q => (b.game q).isCompleted

/-- The result of the match at `p` taken back: its teams out of the matches they moved into,
its result cleared. -/
def withdrawn (b : Bracket) (p : Pos) : Bracket :=
  ((b.moves p).foldl (fun c x => c.modifyAt x.1 (·.unseat x.2)) b).modifyAt p Match.cleared

/-- The match at `p` with the scores and state of a verdict. -/
def scored (b : Bracket) (p : Pos) (v : Verdict) : Bracket :=
  b.modifyAt p fun m => { m with score1 := v.score1, score2 := v.score2, status := v.status }

/-- The match at `p` marked as decided by hand for `t`. -/
def overriddenAt (b : Bracket) (p : Pos) (t : Value) : Bracket :=
  b.modifyAt p fun m => { m with manualWinner := t, manualOverride := .bool true }

theorem mem_places {b : Bracket} (hw : b.Wired) {x : MatchRef × Match} :
    x ∈ b.places ↔ ∃ q ∈ b.positions, x = (.knockout q, b.game q) := by
  simp only [places, hw.fixtures_eq, hw.groups_eq, List.zipIdx_nil, List.map_nil, List.append_nil,
    List.flatMap_nil, List.mem_map]
  constructor
  · rintro ⟨⟨q, m⟩, hm, rfl⟩
    obtain ⟨hq, rfl⟩ := mem_knockoutPlaces_iff.1 hm
    exact ⟨q, hq, rfl⟩
  · rintro ⟨q, hq, rfl⟩
    exact ⟨(q, b.game q), mem_knockoutPlaces_iff.2 ⟨hq, rfl⟩, rfl⟩

/-- In a wired draw the first match with an id is the match at its place. -/
theorem find?_eq {b : Bracket} (hw : b.Wired) (v : Value) : b.find? v = (b.locate? v).map b.game := by
  have hr : (b.places.find? (·.2.id.eqv v)).map Prod.fst = (b.locate? v).map MatchRef.knockout :=
    findRef?_eq hw v
  change (b.places.find? (·.2.id.eqv v)).map Prod.snd = _
  cases hx : b.places.find? (·.2.id.eqv v) with
  | none =>
    rw [hx, Option.map_none] at hr
    rw [Option.map_none, (Option.map_eq_none_iff.1 hr.symm), Option.map_none]
  | some x =>
    obtain ⟨q, -, rfl⟩ := (mem_places hw).1 (List.mem_of_find?_eq_some hx)
    rw [hx, Option.map_some] at hr
    obtain ⟨q', hq', hqq⟩ := Option.map_eq_some_iff.1 hr.symm
    cases hqq
    rw [hq']
    rfl

end Bracket

namespace Step

/-- The outcome of a step run on the default competition: for a step that neither reads nor
changes the competition, its outcome on every one. -/
def outcome {α : Type} (x : Step α) : Except BracketError α := (exec x default).1

/-- A step that neither reads nor changes the competition. -/
def Stateless {α : Type} (x : Step α) : Prop := ∀ b, exec x b = (outcome x, b)

theorem stateless_pure {α : Type} (a : α) : Stateless (pure a : Step α) := fun _ => rfl

theorem stateless_throw {α : Type} (e : BracketError) : Stateless (throw e : Step α) := fun _ => rfl

theorem stateless_bind {α β : Type} {x : Step α} {f : α → Step β} (hx : Stateless x)
    (hf : ∀ a, Stateless (f a)) : Stateless (x >>= f) := by
  intro b
  show exec (x >>= f) b = ((exec (x >>= f) default).1, b)
  rw [exec_bind, exec_bind, hx b, hx default]
  cases outcome x with
  | ok a => simp only [hf a b, hf a default]
  | error e => rfl

theorem exec_relate (rel : Relation) (a c : Value) (b : Bracket) :
    exec (relate rel a c) b = ((Value.relate rel a c).mapError .operand, b) := by
  unfold relate
  cases Value.relate rel a c <;> rfl

theorem stateless_relate (rel : Relation) (a c : Value) : Stateless (relate rel a c) := fun b => by
  rw [exec_relate, outcome, exec_relate]

theorem stateless_resultStatus (m : Match) (r : Result) (s1 s2 : Value) :
    Stateless (resultStatus m r s1 s2) := by
  intro b
  unfold resultStatus
  split
  · rfl
  · split <;> rfl
  · rfl

theorem stateless_scoreWinner (m : Match) (s1 s2 : Value) : Stateless (scoreWinner m s1 s2) := by
  unfold scoreWinner
  split
  · exact stateless_pure _
  · refine stateless_bind (stateless_relate _ _ _) fun x => ?_
    split
    · exact stateless_pure _
    · refine stateless_bind (stateless_relate _ _ _) fun y => ?_
      split
      · exact stateless_pure _
      · exact stateless_pure _

end Step

/-- The checks a result passes on the knockout match `m` with id `id`, and what it decides;
refused as recording the result is refused before it changes anything. -/
def Match.judge (m : Match) (id : Value) (r : Result) : Except BracketError Verdict := do
  if !r.advancing.isNull ∧ !m.plays r.advancing then
    throw (.notPlaying r.advancing.describe id.describe)
  let s1 := Step.mergedScore r.score1 m.score1
  let s2 := Step.mergedScore r.score2 m.score2
  let status ← Step.outcome (Step.resultStatus m r s1 s2)
  let byScore ← Step.outcome (Step.scoreWinner m s1 s2)
  let winner : Value := if r.advancing.truthy then r.advancing else byScore
  if status = .completed then
    if m.team1.isNull ∨ m.team2.isNull then throw (.missingTeams id.describe)
    if winner.isNull then throw (.level id.describe)
  return ⟨s1, s2, status, byScore, winner⟩

/-- What a refusal-free verdict says: the checks passed, and the scores, state and winner are
the ones the result and the match give. -/
theorem Match.judge_eq_ok {m : Match} {id : Value} {r : Result} {v : Verdict} (h : m.judge id r = .ok v) :
    ¬((!r.advancing.isNull) = true ∧ (!m.plays r.advancing) = true) ∧
    Step.outcome (Step.resultStatus m r v.score1 v.score2) = .ok v.status ∧
    Step.outcome (Step.scoreWinner m v.score1 v.score2) = .ok v.byScore ∧
    v.score1 = Step.mergedScore r.score1 m.score1 ∧ v.score2 = Step.mergedScore r.score2 m.score2 ∧
    v.winner = (if r.advancing.truthy then r.advancing else v.byScore) ∧
    (v.status = .completed → m.team1.isNull = false ∧ m.team2.isNull = false ∧
      v.winner.isNull = false) := by
  unfold judge at h
  by_cases hplay : (!r.advancing.isNull) = true ∧ (!m.plays r.advancing) = true
  · rw [if_pos hplay] at h
    cases h
  rw [if_neg hplay] at h
  cases hst : Step.outcome (Step.resultStatus m r (Step.mergedScore r.score1 m.score1)
      (Step.mergedScore r.score2 m.score2)) with
  | error e => simp only [hst] at h; cases h
  | ok st =>
  cases hsw : Step.outcome (Step.scoreWinner m (Step.mergedScore r.score1 m.score1)
      (Step.mergedScore r.score2 m.score2)) with
  | error e => simp only [hst, hsw] at h; cases h
  | ok w =>
  simp only [hst, hsw, bind, Except.bind] at h
  by_cases hc : st = .completed
  · subst hc
    by_cases hm : m.team1.isNull = true ∨ m.team2.isNull = true
    · simp only [if_true, hm] at h
      cases h
    by_cases hl : (if r.advancing.truthy = true then r.advancing else w).isNull = true
    · simp only [if_true, hm, hl, if_false] at h
      cases h
    simp only [if_true, hm, hl, if_false, Bool.false_eq_true, pure, Except.pure, Except.ok.injEq] at h
    subst h
    simp only [not_or, Bool.not_eq_true] at hm hl
    exact ⟨hplay, hst, hsw, rfl, rfl, rfl, fun _ => ⟨hm.1, hm.2, hl⟩⟩
  · simp only [hc, if_false, pure, Except.pure, Except.ok.injEq] at h
    subst h
    exact ⟨hplay, hst, hsw, rfl, rfl, rfl, fun h => absurd h hc⟩

theorem Step.scoreWinner_cases {m : Match} {s1 s2 w : Value}
    (h : outcome (scoreWinner m s1 s2) = .ok w) : w = .null ∨ w = m.team1 ∨ w = m.team2 := by
  unfold Step.outcome Step.scoreWinner at h
  split at h
  · cases h
    exact .inl rfl
  · rw [Step.exec_bind, Step.exec_relate] at h
    cases hr : Value.relate .gt s1 s2 with
    | error e => simp [hr, Except.mapError] at h
    | ok x =>
      simp only [hr, Except.mapError] at h
      cases x
      · rw [if_neg Bool.false_ne_true, Step.exec_bind, Step.exec_relate] at h
        cases hr' : Value.relate .gt s2 s1 with
        | error e => simp [hr', Except.mapError] at h
        | ok y =>
          simp only [hr', Except.mapError] at h
          cases y
          · rw [if_neg Bool.false_ne_true] at h
            cases h
            exact .inl rfl
          · rw [if_pos rfl] at h
            cases h
            exact .inr (.inr rfl)
      · rw [if_pos rfl] at h
        cases h
        exact .inr (.inl rfl)
/-- A verdict that completes a match whose sides hold teams or nothing: both sides hold teams
and one of them goes through. -/
theorem Match.judge_winner {m : Match} {id : Value} {r : Result} {v : Verdict}
    (h : m.judge id r = .ok v) (hc : v.status = .completed) (h1 : m.team1.Textual)
    (h2 : m.team2.Textual) :
    m.team1 ≠ .null ∧ m.team2 ≠ .null ∧ (v.winner = m.team1 ∨ v.winner = m.team2) := by
  obtain ⟨hplay, -, hsw, -, -, hwin, hdone⟩ := judge_eq_ok h
  obtain ⟨n1, n2, nw⟩ := hdone hc
  have ne_of_isNull : ∀ {x : Value}, x.isNull = false → x ≠ .null := fun hx h0 => by
    rw [h0] at hx
    cases hx
  refine ⟨ne_of_isNull n1, ne_of_isNull n2, ?_⟩
  by_cases ht : r.advancing.truthy = true
  · rw [if_pos ht] at hwin
    have hplays : m.plays r.advancing = true := by
      simpa [Value.isNull_of_truthy ht] using hplay
    rcases Bool.or_eq_true_iff.1 hplays with h0 | h0
    · exact .inl (hwin.trans (h1.eqv_iff.1 h0))
    · exact .inr (hwin.trans (h2.eqv_iff.1 h0))
  · rw [if_neg ht] at hwin
    rcases Step.scoreWinner_cases hsw with h0 | h0 | h0
    · rw [hwin, h0] at nw
      cases nw
    · exact .inl (hwin.trans h0)
    · exact .inr (hwin.trans h0)


namespace Step

/-- A loop that changes one match each round leaves the competition with those changes made
in turn. -/
theorem exec_forIn_update {α : Type} (pos : α → Pos) (f : α → Match → Match) :
    ∀ (l : List α) (b : Bracket),
      exec (forIn l PUnit.unit fun x _ => do
        update (pos x) (f x)
        pure (ForInStep.yield PUnit.unit)) b =
        (.ok PUnit.unit, l.foldl (fun c x => c.modifyAt (pos x) (f x)) b) := by
  intro l
  induction l with
  | nil => intro b; rfl
  | cons x xs ih =>
    intro b
    rw [List.forIn_cons, exec_bind_of_ok (by rfl), List.foldl_cons]
    exact ih _

theorem exec_locate_of_dest {b : Bracket} {p q : Pos} {k : Link} (hw : b.Wired)
    (h : b.dest p k = some q) : exec (locate ((b.game p).target k)) b = (.ok q, b) := by
  obtain ⟨hq, hid⟩ := (Bracket.dest_eq_some_iff hw).1 h
  obtain ⟨s, hs, -⟩ := hw.named q hq
  rw [← hid, hs, exec_locate_str, ← hs, Bracket.locate?_id hw hq]

/-- Withdrawing a result is refused, with nothing changed, once a match its teams moved into
has been played; otherwise it takes them back out and clears the result. -/
theorem exec_withdraw {p : Pos} {b : Bracket} (hw : b.Wired) (hp : p ∈ b.positions) :
    exec (withdraw p) b = match b.blocker? p with
      | some q => (.error (.alreadyPlayed (b.game p).id.describe (b.game q).id.describe), b)
      | none => (.ok (), b.withdrawn p) := by
  have hloc : ∀ k, b.moved p k → ∃ q, b.dest p k = some q ∧
      exec (locate ((b.game p).target k)) b = (.ok q, b) := fun k hk => by
    obtain ⟨q, hq⟩ := Bracket.dest_of_truthy hw hp hk.1
    exact ⟨q, hq, exec_locate_of_dest hw hq⟩
  unfold withdraw
  simp only [exec_bind, exec_matchAt, List.forIn_cons, List.forIn_nil]
  by_cases h1 : b.moved p .next <;> by_cases h2 : b.moved p .loserNext
  · obtain ⟨q1, hq1, hl1⟩ := hloc _ h1
    obtain ⟨q2, hq2, hl2⟩ := hloc _ h2
    have hm : b.moves p = [(q1, (b.game p).winner), (q2, (b.game p).loser)] := by
      simp [Bracket.moves, Bracket.moveAlong, h1, h2, hq1, hq2, Match.mover]
    simp only [Match.target] at hl1 hl2
    simp only [Bracket.moved, Match.target, Match.mover] at h1 h2
    by_cases hc1 : (b.game q1).isCompleted = true <;> by_cases hc2 : (b.game q2).isCompleted = true <;>
      simp only [h1, h2, and_self, if_true, hc1, hc2, if_false, Bool.false_eq_true, exec_bind,
        exec_throw, exec_pure, Bracket.blocker?, hm, List.map_cons, List.map_nil, List.find?_cons,
        List.find?_nil, List.nil_append, List.cons_append, exec_forIn_update, exec_update,
        Bracket.withdrawn, hl1, hl2, exec_matchAt]
    rfl
  · obtain ⟨q1, hq1, hl1⟩ := hloc _ h1
    have hm : b.moves p = [(q1, (b.game p).winner)] := by
      simp [Bracket.moves, Bracket.moveAlong, h1, h2, hq1, Match.mover]
    simp only [Match.target] at hl1
    simp only [Bracket.moved, Match.target, Match.mover] at h1 h2
    by_cases hc1 : (b.game q1).isCompleted = true <;>
      simp only [h1, h2, and_self, if_true, hc1, if_false, Bool.false_eq_true, exec_bind,
        exec_throw, exec_pure, Bracket.blocker?, hm, List.map_cons, List.map_nil, List.find?_cons,
        List.find?_nil, List.nil_append, List.cons_append, exec_forIn_update, exec_update,
        Bracket.withdrawn, hl1, exec_matchAt]
    rfl
  · obtain ⟨q2, hq2, hl2⟩ := hloc _ h2
    have hm : b.moves p = [(q2, (b.game p).loser)] := by
      simp [Bracket.moves, Bracket.moveAlong, h1, h2, hq2, Match.mover]
    simp only [Match.target] at hl2
    simp only [Bracket.moved, Match.target, Match.mover] at h1 h2
    by_cases hc2 : (b.game q2).isCompleted = true <;>
      simp only [h1, h2, and_self, if_true, hc2, if_false, Bool.false_eq_true, exec_bind,
        exec_throw, exec_pure, Bracket.blocker?, hm, List.map_cons, List.map_nil, List.find?_cons,
        List.find?_nil, List.nil_append, exec_forIn_update, exec_update,
        Bracket.withdrawn, hl2, exec_matchAt]
    rfl
  · have hm : b.moves p = [] := by
      simp [Bracket.moves, Bracket.moveAlong, h1, h2]
    simp only [Bracket.moved, Match.target, Match.mover] at h1 h2
    simp only [h1, h2, if_false, exec_bind, exec_pure, Bracket.blocker?, hm, List.map_nil,
      List.find?_nil, exec_forIn_update, exec_update, Bracket.withdrawn]
    rfl

theorem exec_isKnockout {b : Bracket} (hw : b.Wired) {s : String} :
    exec (isKnockout (.str s)) b = (.ok (b.locate? (.str s)).isSome, b) := by
  unfold isKnockout
  rw [exec_bind_of_ok (exec_knockoutKeys hw), exec_bind_of_ok (exec_keyable_str s b)]
  rfl

theorem exec_withdrawIf {α : Type} {b : Bracket} {p : Pos} (hw : b.Wired) (hp : p ∈ b.positions)
    (x : Step α) :
    exec (if (b.game p).isCompleted = true then do withdraw p; x else x) b =
      match if (b.game p).isCompleted then b.blocker? p else none with
      | some q => (.error (.alreadyPlayed (b.game p).id.describe (b.game q).id.describe), b)
      | none => exec x (if (b.game p).isCompleted then b.withdrawn p else b) := by
  by_cases hc : (b.game p).isCompleted = true
  · simp only [hc, if_true, exec_bind, exec_withdraw hw hp]
    cases b.blocker? p <;> rfl
  · simp only [hc, if_false, Bool.false_eq_true]

theorem exec_settle_matchOf (b : Bracket) (p : Pos) (w : Value) :
    exec (do
      let f ← fuel
      settle f p w
      matchOf (.knockout p)) b =
      match exec (settle (b.knockoutCount + 1) p w) b with
      | (.ok _, b₃) => (.ok (b₃.game p), b₃)
      | (.error e, b₃) => (.error e, b₃) := by
  rw [exec_bind_of_ok (exec_fuel b), exec_bind]
  rcases exec (settle (b.knockoutCount + 1) p w) b with ⟨_ | _, b₃⟩ <;> rfl

/-- Recording a result on a knockout match: refused by its checks, or by a played follow-up,
with nothing changed; else the old result is withdrawn, the scores and state set, and a
decided match settled along its links. -/
theorem exec_record {b : Bracket} {p : Pos} {id : Value} (hw : b.Wired) (hp : b.locate? id = some p) (r : Result) :
    exec (record id r) b =
      match (b.game p).judge id r with
      | .error e => (.error e, b)
      | .ok v =>
        match if (b.game p).isCompleted then b.blocker? p else none with
        | some q => (.error (.alreadyPlayed (b.game p).id.describe (b.game q).id.describe), b)
        | none =>
          let b₁ := (if (b.game p).isCompleted then b.withdrawn p else b).scored p v
          if v.status = .completed then
            let b₂ := if v.overrides r then b₁.overriddenAt p r.advancing else b₁
            match exec (settle (b₂.knockoutCount + 1) p v.winner) b₂ with
            | (.ok _, b₃) => (.ok (b₃.game p), b₃)
            | (.error e, b₃) => (.error e, b₃)
          else (.ok (b₁.game p), b₁) := by
  obtain ⟨hpos, hid⟩ := (Bracket.locate?_eq_some_iff hw).1 hp
  obtain ⟨s, hs, -⟩ := hw.named p hpos
  have href : b.findRef? id = some (.knockout p) := by rw [Bracket.findRef?_eq hw, hp]; rfl
  have hget : (b.get? (.knockout p)).getD default = b.game p := rfl
  have hk : (b.locate? (.str s)).isSome = true := by rw [← hs, hid, hp]; rfl
  rw [← hid, hs] at href ⊢
  unfold record
  simp only [exec_bind, exec_get, href, hget, exec_isKnockout hw, hk, true_and, Bool.not_true,
    Bool.false_eq_true, if_false]
  by_cases hplay : (!r.advancing.isNull) = true ∧ (!(b.game p).plays r.advancing) = true
  · have hj : (b.game p).judge (.str s) r = .error (.notPlaying r.advancing.describe (Value.str s).describe) := by
      rw [Match.judge, if_pos hplay]; rfl
    rw [hj, if_pos hplay]
    rfl
  simp only [hplay, if_false, exec_bind, stateless_resultStatus _ _ _ _ b]
  cases hst : outcome (resultStatus (b.game p) r (mergedScore r.score1 (b.game p).score1)
    (mergedScore r.score2 (b.game p).score2)) with
  | error e =>
    have hj : (b.game p).judge (.str s) r = .error e := by
      rw [Match.judge, if_neg hplay]; simp only [hst]; rfl
    rw [hj]
  | ok st =>
  simp only [stateless_scoreWinner _ _ _ b]
  cases hsw : outcome (scoreWinner (b.game p) (mergedScore r.score1 (b.game p).score1)
    (mergedScore r.score2 (b.game p).score2)) with
  | error e =>
    have hj : (b.game p).judge (.str s) r = .error e := by
      rw [Match.judge, if_neg hplay]; simp only [hst, hsw]; rfl
    rw [hj]
  | ok w =>
  by_cases hc : st = .completed
  · by_cases hm : (b.game p).team1.isNull = true ∨ (b.game p).team2.isNull = true
    · have hj : (b.game p).judge (.str s) r = .error (.missingTeams (Value.str s).describe) := by
        rw [Match.judge, if_neg hplay]; simp only [hst, hsw, hc, hm, if_true, bind, Except.bind]; rfl
      rw [hj]
      simp only [hc, hm, if_true, exec_bind, exec_throw]
    by_cases hl : (if r.advancing.truthy = true then r.advancing else w).isNull = true
    · have hj : (b.game p).judge (.str s) r = .error (.level (Value.str s).describe) := by
        rw [Match.judge, if_neg hplay]; simp only [hst, hsw, hc, hm, hl, if_true, if_false, bind, Except.bind]; rfl
      rw [hj]
      simp only [hc, hm, hl, if_true, if_false, exec_bind, exec_throw]
    have hj : (b.game p).judge (.str s) r = .ok ⟨mergedScore r.score1 (b.game p).score1,
        mergedScore r.score2 (b.game p).score2, st, w,
        if r.advancing.truthy = true then r.advancing else w⟩ := by
      rw [Match.judge, if_neg hplay]; simp only [hst, hsw, hc, hm, hl, if_true, if_false, bind, Except.bind]; rfl
    rw [hj]
    simp only [hc, hm, hl, if_true, if_false, Bool.false_eq_true, ne_eq, not_true_eq_false]
    have hov : ((!w.isNull) = true ∧ (!r.advancing.isNull) = true ∧ (!r.advancing.eqv w) = true) ↔
        (Verdict.overrides ⟨mergedScore r.score1 (b.game p).score1, mergedScore r.score2 (b.game p).score2,
          Status.completed, w, if r.advancing.truthy = true then r.advancing else w⟩ r) = true := by
      simp [Verdict.overrides, and_assoc]
    rw [exec_withdrawIf hw hpos]
    rcases (if (b.game p).isCompleted then b.blocker? p else none) with _ | q
    · rw [exec_bind, exec_updateRef]
      dsimp only
      by_cases ho : (!w.isNull) = true ∧ (!r.advancing.isNull) = true ∧ (!r.advancing.eqv w) = true
      · simp only [if_pos ho, hov.1 ho, if_true]
        rw [exec_bind, exec_updateRef]
        dsimp only
        rw [exec_settle_matchOf]
        rfl
      · have ho' : ¬ (Verdict.overrides ⟨mergedScore r.score1 (b.game p).score1,
            mergedScore r.score2 (b.game p).score2, Status.completed, w,
            if r.advancing.truthy = true then r.advancing else w⟩ r) = true := fun h => ho (hov.2 h)
        simp only [if_neg ho, ho', if_false, Bool.false_eq_true]
        rw [exec_settle_matchOf]
        rfl
    · simp only [hs]
  · have hj : (b.game p).judge (.str s) r = .ok ⟨mergedScore r.score1 (b.game p).score1,
        mergedScore r.score2 (b.game p).score2, st, w,
        if r.advancing.truthy = true then r.advancing else w⟩ := by
      rw [Match.judge, if_neg hplay]; simp only [hst, hsw, hc, if_false, bind, Except.bind]; rfl
    rw [hj]
    simp only [hc, if_false]
    rw [exec_withdrawIf hw hpos]
    rcases (if (b.game p).isCompleted then b.blocker? p else none) with _ | q
    · rw [exec_bind, exec_updateRef]
      simp only [ne_eq, hc, not_false_eq_true, if_true]
      rfl
    · simp only [hs]
theorem exec_record_of_none {b : Bracket} {id : Value} (hw : b.Wired) (h : b.locate? id = none)
    (r : Result) : exec (record id r) b = (.error (.unknownMatch id.describe), b) := by
  have href : b.findRef? id = none := by rw [Bracket.findRef?_eq hw, h]; rfl
  unfold record
  simp only [exec_bind, exec_get, href]
  rfl

/-- Forcing a winner: refused with nothing changed for an unknown match or a team that does
not play in it; else the match is recorded as completed for the team and marked as set by
hand. -/
theorem exec_forceWinner {b : Bracket} {p : Pos} {id : Value} (hw : b.Wired)
    (hp : b.locate? id = some p) (t : Value) :
    exec (forceWinner id t) b =
      if (b.game p).plays t then
        match exec (record id { advancing := t, status := .str "COMPLETED" }) b with
        | (.ok _, b') =>
          match b'.findRef? id with
          | some ref =>
            let b'' := b'.modify (fun m => { m with manualWinner := t, manualOverride := .bool true }) ref
            (.ok ((b''.get? ref).getD default), b'')
          | none => (.error (.unknownMatch id.describe), b')
        | (.error e, b') => (.error e, b')
      else (.error (.notPlaying t.describe id.describe), b) := by
  have hfind : b.find? id = some (b.game p) := by rw [Bracket.find?_eq hw, hp]; rfl
  unfold forceWinner
  simp only [exec_bind, exec_get, hfind]
  by_cases ht : (b.game p).plays t = true
  · simp only [ht, Bool.not_true, Bool.false_eq_true, if_false, if_true, exec_bind]
    rcases exec (record id { advancing := t, status := .str "COMPLETED" }) b with ⟨_ | _, b'⟩
    · rfl
    · simp only [exec_get]
      cases b'.findRef? id <;> rfl
  · simp only [ht, Bool.not_false, if_true, exec_bind, exec_throw]
    rfl

end Step

end TournamentDraw
