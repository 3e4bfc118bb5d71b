import TournamentDraw.Proofs.Reachable
import TournamentDraw.Proofs.ByePass

/-!
# The match a result is recorded for

What recording a result leaves in the knockout match it names. The old result is taken back,
the scores and state of the new one are set, a team named against the scores is marked as set
by hand, and a completed match is decided for its winner (`Match.recorded`). The cascade that
follows reaches later rounds only, so it leaves the match as decided (`Settling`).

That the match ends as `Match.recorded` says, whatever it held before, needs an open match to
carry no result and no mark by hand. The routing invariant gives the first; the second is
`Bracket.Unmarked`, which the cascade, every request and placing the teams keep, so that it
holds of every reachable draw (`Reachable.unmarked`).
-/

namespace TournamentDraw

namespace Match

/-- A match with no winner marked as set by hand. -/
def Unmarked (m : Match) : Prop := m.manualWinner = .null ∧ m.manualOverride = .bool false

/-- An update of matches that keeps their state and their marks by hand. -/
def KeepsMarks (f : Match → Match) : Prop :=
  ∀ m, (f m).isCompleted = m.isCompleted ∧ (f m).manualWinner = m.manualWinner ∧
    (f m).manualOverride = m.manualOverride

/-- The match `m` with the result `r`, judged as the verdict `v`, recorded in place of its old
result: the old one cleared, the scores and state of the verdict set, a team named against the
scores marked as set by hand, and a completed match decided for the verdict's winner. -/
def recorded (m : Match) (v : Verdict) (r : Result) : Match :=
  if v.status = .completed then
    (if v.overrides r then
      { m.cleared.rescored v with manualWinner := r.advancing, manualOverride := .bool true }
    else m.cleared.rescored v).decidedFor v.winner
  else m.cleared.rescored v

variable {m : Match} {v : Verdict} {r : Result}

@[simp] theorem recorded_winner :
    (m.recorded v r).winner = if v.status = .completed then v.winner else .null := by
  unfold recorded
  split
  · split <;> rfl
  · rfl

@[simp] theorem recorded_loser :
    (m.recorded v r).loser = if v.status = .completed then m.loserFor v.winner else .null := by
  unfold recorded
  split
  · split <;> rfl
  · rfl

@[simp] theorem recorded_manualWinner :
    (m.recorded v r).manualWinner =
      if v.status = .completed ∧ v.overrides r = true then r.advancing else .null := by
  unfold recorded
  by_cases hs : v.status = .completed
  · by_cases ho : v.overrides r = true
    · simp [hs, ho, decidedFor]
    · simp [hs, ho, decidedFor, cleared, rescored]
  · simp [hs, cleared, rescored]

@[simp] theorem recorded_manualOverride :
    (m.recorded v r).manualOverride =
      if v.status = .completed ∧ v.overrides r = true then .bool true else .bool false := by
  unfold recorded
  by_cases hs : v.status = .completed
  · by_cases ho : v.overrides r = true
    · simp [hs, ho, decidedFor]
    · simp [hs, ho, decidedFor, cleared, rescored]
  · simp [hs, cleared, rescored]

@[simp] theorem recorded_status : (m.recorded v r).status = v.status := by
  unfold recorded
  split
  · next hs => split <;> exact hs.symm
  · rfl

/-- An open match with no result and no mark has nothing to clear. -/
theorem cleared_eq_self (hw : m.winner = .null) (hl : m.loser = .null) (hu : m.Unmarked) :
    m.cleared = m := by
  obtain ⟨hm, ho⟩ := hu
  cases m
  simp_all [cleared]

theorem keepsMarks_seatOn (x : Value) (s : Side) : KeepsMarks (·.seatOn x s) := fun _ => by
  cases s <;> exact ⟨rfl, rfl, rfl⟩

theorem keepsMarks_unseat (x : Value) : KeepsMarks (·.unseat x) := fun m => by
  dsimp only
  rw [unseat_eq]
  split
  · exact ⟨rfl, rfl, rfl⟩
  · split <;> exact ⟨rfl, rfl, rfl⟩

theorem keepsMarks_mark : KeepsMarks fun m : Match => { m with autoAdvance := .bool true } :=
  fun _ => ⟨rfl, rfl, rfl⟩

end Match

namespace Pending

/-- A move owed by the cascade that settles the match at `p` for `w`: the decision of `p` for
`w` itself, a seat out of `p`'s round or a later one, or a decision in a later round. -/
def Past (p : Pos) (w : Value) : Pending → Prop
  | .seat q _ _ => p.round ≤ q.round
  | .decide q w' => (q = p ∧ w' = w) ∨ p.round < q.round

end Pending

/-- The cascade that settles the match at `p`, which stood as `m₀`, for `w`: it owes moves past
`p` only, and the match at `p` is `m₀` while its decision is owed and `m₀` decided for `w`
after. -/
structure Settling (p : Pos) (m₀ : Match) (w : Value) (b : Bracket) (ps : List Pending) :
    Prop where
  routed : Routed b ps
  past : ∀ x ∈ ps, x.Past p w
  game_eq : b.game p = if p ∈ Pending.decisions ps then m₀ else m₀.decidedFor w

namespace Settling

open TournamentDraw.Bracket

variable {p q : Pos} {m₀ : Match} {w : Value} {b : Bracket} {ps : List Pending}

/-- A change that keeps the match at `p` and whether its decision is owed keeps what the
invariant says of it. -/
theorem game_eq_congr {c : Bracket} {ps' : List Pending} (h : Settling p m₀ w b ps)
    (hc : c.game p = b.game p)
    (hdec : p ∈ Pending.decisions ps' ↔ p ∈ Pending.decisions ps) :
    c.game p = if p ∈ Pending.decisions ps' then m₀ else m₀.decidedFor w := by
  rw [hc, h.game_eq]
  exact if_congr hdec.symm rfl rfl

theorem decide_step (h : Settling p m₀ w b (.decide q w' :: ps)) :
    q ∈ b.positions ∧ Settling p m₀ w (b.decideAt q w') (b.seatsAfter q w' ++ ps) := by
  obtain ⟨hq, hR⟩ := h.routed.decide_step
  have hfresh : q ∉ Pending.decisions ps := (List.nodup_cons.1 h.routed.nodup).1
  have hqp : (q = p ∧ w' = w) ∨ p.round < q.round := h.past _ List.mem_cons_self
  -- the seats owed now leave `q`, which is `p` or lies past it
  have hpast : ∀ x ∈ b.seatsAfter q w' ++ ps, x.Past p w := by
    intro x hx
    rcases List.mem_append.1 hx with hx | hx
    · cases x with
      | seat q' k x' =>
        obtain ⟨rfl, -⟩ := mem_seatsAfter hx
        show p.round ≤ q'.round
        rcases hqp with ⟨rfl, -⟩ | hlt <;> omega
      | decide q' w'' => exact absurd hx Pending.decide_not_mem_seatsAfter
    · exact h.past x (List.mem_cons_of_mem _ hx)
  have hdec : Pending.decisions (b.seatsAfter q w' ++ ps) = Pending.decisions ps := by
    simp [decisions_seatsAfter]
  refine ⟨hq, hR, hpast, ?_⟩
  rw [hdec, game_decideAt hq]
  rcases hqp with ⟨rfl, rfl⟩ | hlt
  · -- the decision of `p` itself, owed once
    have hm : b.game q = m₀ := by simpa using h.game_eq
    rw [if_pos rfl, if_neg hfresh, hm]
  · have hne : p ≠ q := fun he => by rw [he] at hlt; omega
    rw [if_neg hne, h.game_eq, Pending.decisions_cons_decide]
    exact if_congr (by simp [hne]) rfl rfl

theorem seat_step {k : Link} {x : Value} (h : Settling p m₀ w b (.seat q k x :: ps)) :
    q ∈ b.positions ∧ ∃ q' s, b.dest q k = some q' ∧
      (b.game q').freeSide? (b.preferred q q') = some s ∧
        Settles (Settling p m₀ w) (b.seatAt q' x s) q' ps := by
  obtain ⟨hq, q', s, hd, hs, hset⟩ := h.routed.seat_step
  have hw := h.routed.wired
  have hq'pos := mem_positions_of_dest hw hd
  -- the seat lands in a round past `q`'s, so past `p`'s
  have hlt : p.round < q'.round := by
    have h₁ : p.round ≤ q.round := h.past _ List.mem_cons_self
    have h₂ := round_lt_of_dest hw hq hd
    omega
  have hne : p ≠ q' := fun he => by rw [he] at hlt; omega
  have hseat : (b.seatAt q' x s).game p = b.game p := by rw [game_seatAt hq'pos, if_neg hne]
  have hrest : ∀ x' ∈ ps, x'.Past p w := fun x' hx => h.past x' (List.mem_cons_of_mem _ hx)
  refine ⟨hq, q', s, hd, hs, ?_⟩
  unfold Settles at hset ⊢
  split
  · next w' hbye =>
    rw [hbye] at hset
    refine ⟨hset, ?_, h.game_eq_congr ?_ (by simp [hne])⟩
    · intro x' hx
      rcases List.mem_cons.1 hx with rfl | hx
      · exact .inr hlt
      · exact hrest x' hx
    · rw [game_markAt (by simpa using hq'pos), if_neg hne, hseat]
  · next hbye =>
    rw [hbye] at hset
    exact ⟨hset, hrest, h.game_eq_congr hseat (by simp)⟩

theorem cascade : Cascade (Settling p m₀ w) where
  wired _ _ h := h.routed.wired
  decide _ _ _ _ h := h.decide_step
  seat _ _ _ _ _ h := h.seat_step

end Settling

/-- A knockout draw in which no open match carries a winner marked as set by hand. -/
def Bracket.Unmarked (b : Bracket) : Prop :=
  ∀ q ∈ b.positions, (b.game q).isCompleted = false → (b.game q).Unmarked

namespace Bracket.Unmarked

open TournamentDraw.Bracket

variable {b : Bracket} {p q : Pos}

/-- Changing one match keeps a draw unmarked when the match it gives is unmarked while open. -/
theorem modifyAt (h : b.Unmarked) {f : Match → Match} (q : Pos)
    (hf : q ∈ b.positions → (f (b.game q)).isCompleted = false → (f (b.game q)).Unmarked) :
    (b.modifyAt q f).Unmarked := by
  intro q' hq' hc
  rw [positions_modifyAt] at hq'
  by_cases he : q' = q
  · subst he
    rw [game_modifyAt_self f hq'] at hc ⊢
    exact hf hq' hc
  · rw [game_modifyAt_ne b f he] at hc ⊢
    exact h q' hq' hc

theorem modifyAt_keeps (h : b.Unmarked) {f : Match → Match} (hf : Match.KeepsMarks f)
    (q : Pos) : (b.modifyAt q f).Unmarked :=
  h.modifyAt q fun hq hc => by
    obtain ⟨hc', hw, ho⟩ := hf (b.game q)
    obtain ⟨hw', ho'⟩ := h q hq (hc'.symm.trans hc)
    exact ⟨hw.trans hw', ho.trans ho'⟩

theorem decideAt (h : b.Unmarked) (w : Value) : (b.decideAt p w).Unmarked :=
  h.modifyAt p fun _ hc => by simp [Match.isCompleted] at hc

theorem seatAt (h : b.Unmarked) (x : Value) (s : Side) : (b.seatAt q x s).Unmarked :=
  h.modifyAt_keeps (Match.keepsMarks_seatOn x s) q

theorem markAt (h : b.Unmarked) : (b.markAt q).Unmarked :=
  h.modifyAt_keeps Match.keepsMarks_mark q

/-- Whether or not the match at `q` faces the bye, settling it keeps a draw unmarked. -/
theorem settles (h : b.Unmarked) (q : Pos) (ps : List Pending) :
    Settles (fun c _ => c.Unmarked) b q ps := by
  unfold Settles
  split
  · exact h.markAt
  · exact h

theorem unseatAll (h : b.Unmarked) (l : List (Pos × Value)) : (b.unseatAll l).Unmarked := by
  induction l generalizing b with
  | nil => exact h
  | cons x l ih => exact ih (h.modifyAt_keeps (Match.keepsMarks_unseat x.2) x.1)

/-- Taking a result back clears the match's mark along with its result. -/
theorem withdrawn (h : b.Unmarked) (p : Pos) : (b.withdrawn p).Unmarked :=
  (h.unseatAll _).modifyAt p fun _ _ => ⟨rfl, rfl⟩

/-- A mark set on a completed match leaves the draw unmarked. -/
theorem overriddenAt (h : b.Unmarked) (hc : (b.game p).isCompleted = true) (t : Value) :
    (b.overriddenAt p t).Unmarked :=
  h.modifyAt p fun _ hc' => Bool.noConfusion (hc.symm.trans hc')

end Bracket.Unmarked

/-- An invariant of the cascade stays one with the draw unmarked: a decision completes its
match, and seats and marks against the bye leave marks by hand alone. -/
theorem Cascade.unmarked {I : Bracket → List Pending → Prop} (hI : Cascade I) :
    Cascade (fun b ps => I b ps ∧ b.Unmarked) :=
  hI.and (fun _ _ w _ _ hU => hU.decideAt w)
    (fun _ _ _ x _ q s _ hU _ _ => (hU.seatAt x s).settles q _)

namespace Routed

open TournamentDraw.Bracket

variable {b : Bracket} {p : Pos}

/-- **The cascade leaves the decided match as decided.** Deciding the match a routed, unmarked
draw owes runs to the end; the draw stays routed and unmarked on the same skeleton, and the
match ends decided for the winner, since the cascade goes on in later rounds only. -/
theorem settle_decided {w : Value} (h : Routed b [.decide p w]) (hU : b.Unmarked) :
    ∃ b', Step.exec (Step.settle (b.knockoutCount + 1) p w) b = (.ok (), b') ∧ Routed b' [] ∧
      b'.Unmarked ∧ b'.skeleton = b.skeleton ∧ b'.game p = (b.game p).decidedFor w := by
  have hfuel : b.skeleton.length ≤ b.knockoutCount + 1 + p.round := by
    have := h.wired.length_le_knockoutCount
    simp only [skeleton, List.length_map]
    omega
  have hS : Settling p (b.game p) w b [.decide p w] := ⟨h, by simp [Pending.Past], by simp⟩
  obtain ⟨b', hrun, ⟨hS', hU'⟩, hsk⟩ :=
    (Settling.cascade.unmarked.withSkeleton b.skeleton).settle (fun _ _ h => h.2) _ p w b []
      hfuel ⟨⟨hS, hU⟩, rfl⟩
  refine ⟨b', hrun, hS'.routed, hU', hsk, ?_⟩
  simpa using hS'.game_eq

/-- Resolving the byes keeps a routed draw unmarked. -/
theorem resolveByes_unmarked (h : Routed b []) (hU : b.Unmarked) :
    ∃ b', Step.exec Step.resolveByes b = (.ok (), b') ∧ Routed b' [] ∧ b'.Unmarked := by
  obtain ⟨b', hrun, ⟨hR, hU'⟩, -⟩ := Cascade.resolveByes
    (J := fun _ c ps => (Routed c ps ∧ c.Unmarked) ∧ c.skeleton = b.skeleton)
    (fun _ => cascade.unmarked.withSkeleton _) (fun _ _ _ h => h.2)
    (fun x _ _ hx => ((hx.1.1.settles_any x.1).and (hx.1.2.settles x.1 [])).withSkeleton hx.2)
    ⟨⟨h, hU⟩, rfl⟩
  exact ⟨b', hrun, hR, hU'⟩

/-- Taking a match back, when it has a result, and scoring it anew leaves the match cleared
and rescored in an unmarked draw that still holds it. -/
theorem reopened_scored (h : Routed b []) (hU : b.Unmarked) (hp : p ∈ b.positions)
    (v : Verdict) :
    ((if (b.game p).isCompleted then b.withdrawn p else b).scored p v).game p =
        (b.game p).cleared.rescored v ∧
      ((if (b.game p).isCompleted then b.withdrawn p else b).scored p v).Unmarked ∧
      p ∈ ((if (b.game p).isCompleted then b.withdrawn p else b).scored p v).positions := by
  set B₀ := if (b.game p).isCompleted then b.withdrawn p else b with hB₀
  -- an open match had no result and no mark, so both ways it is cleared and rescored
  have hB₁p : (B₀.scored p v).game p = (b.game p).cleared.rescored v := by
    rw [hB₀]
    split
    · rw [game_reopened h.wired hp, if_pos rfl]
    · next hc =>
      have hopen : (b.game p).isCompleted = false := by simpa using hc
      obtain ⟨hw, hl'⟩ := h.unplayed p hp (.inl hopen)
      rw [game_scored hp, if_pos rfl, Match.cleared_eq_self hw hl' (hU p hp hopen)]
  have hU₀ : B₀.Unmarked := by
    rw [hB₀]
    split
    · exact hU.withdrawn p
    · exact hU
  have hU₁ : (B₀.scored p v).Unmarked := hU₀.modifyAt p fun hp₀ _ => by
    have hg : (B₀.scored p v).game p = (B₀.game p).rescored v := game_modifyAt_self _ hp₀
    show ((B₀.game p).rescored v).Unmarked
    rw [← hg, hB₁p]
    exact ⟨rfl, rfl⟩
  have hpos₀ : B₀.positions = b.positions := by
    rw [hB₀]
    split
    · rw [withdrawn_eq, positions_modifyAt]
      exact (unseatAll_frame _ h.wired).2.1
    · rfl
  refine ⟨hB₁p, hU₁, ?_⟩
  rw [scored_eq, positions_modifyAt, hpos₀]
  exact hp

/-- **What recording a result leaves in its match.** On a routed, unmarked draw, a result that
goes through for the match at `p` passed its checks with some verdict; the match ends as
`Match.recorded` from its old state and that verdict, it is what the request returns, and the
draw stays unmarked. -/
theorem record_recorded (h : Routed b []) (hU : b.Unmarked) {id : Value} {r : Result}
    (hl : b.locate? id = some p) {m' : Match} {b' : Bracket}
    (hrun : Step.exec (Step.record id r) b = (.ok m', b')) :
    ∃ v, (b.game p).judge id r = .ok v ∧ m' = (b.game p).recorded v r ∧ b'.game p = m' ∧
      b'.Unmarked := by
  have hp := ((locate?_eq_some_iff h.wired).1 hl).1
  rw [Step.exec_record h.wired hl r] at hrun
  cases hj : (b.game p).judge id r with
  | error e =>
    rw [hj] at hrun
    cases hrun
  | ok v =>
  rw [hj] at hrun
  dsimp only at hrun
  cases hbl : (if (b.game p).isCompleted then b.blocker? p else none) with
  | some q =>
    rw [hbl] at hrun
    cases hrun
  | none =>
  rw [hbl] at hrun
  dsimp only at hrun
  have hclear : (b.game p).isCompleted = true → b.blocker? p = none := fun hc => by
    rwa [if_pos hc] at hbl
  obtain ⟨hB₁p, hU₁, hp₁⟩ := h.reopened_scored hU hp v
  set B₀ := if (b.game p).isCompleted then b.withdrawn p else b
  have hR := h.rescored hp hclear v (w := v.winner)
    fun hc => Match.judge_winner hj hc (h.textual p hp).1 (h.textual p hp).2
  split at hrun
  · next hs =>
    rw [if_pos hs] at hR
    -- a team named against the scores is marked on the match, now completed
    set B₂ := if v.overrides r then (B₀.scored p v).overriddenAt p r.advancing
      else B₀.scored p v with hB₂
    have hc₁ : ((B₀.scored p v).game p).isCompleted = true := by
      rw [hB₁p]
      simp [Match.rescored, Match.isCompleted, hs]
    have hR₂ : Routed B₂ [.decide p v.winner] := by
      rw [hB₂]
      split
      · exact hR.overriddenAt p r.advancing
      · exact hR
    have hU₂ : B₂.Unmarked := by
      rw [hB₂]
      split
      · exact hU₁.overriddenAt hc₁ r.advancing
      · exact hU₁
    obtain ⟨b₃, hrun₃, -, hU₃, -, hg₃⟩ := hR₂.settle_decided hU₂
    rw [hrun₃] at hrun
    cases hrun
    refine ⟨v, rfl, ?_, rfl, hU₃⟩
    rw [hg₃, Match.recorded, if_pos hs, hB₂]
    by_cases ho : v.overrides r = true
    · rw [if_pos ho, if_pos ho, Bracket.overriddenAt, game_modifyAt_self _ hp₁, hB₁p]
    · rw [if_neg ho, if_neg ho, hB₁p]
  · next hs =>
    cases hrun
    exact ⟨v, rfl, by rw [hB₁p, Match.recorded, if_neg hs], rfl, hU₁⟩

/-- Recording a result keeps a routed draw unmarked, whether it goes through or not. -/
theorem unmarked_record (h : Routed b []) (hU : b.Unmarked) (id : Value) (r : Result) :
    (Step.exec (Step.record id r) b).2.Unmarked := by
  rcases hrun : Step.exec (Step.record id r) b with ⟨_ | m', b'⟩
  · rename_i e
    obtain ⟨hb', -⟩ := (h.record id r).2.2 e (by rw [hrun])
    rw [hrun] at hb'
    rw [← hb'] at hU
    exact hU
  · cases hl : b.locate? id with
    | none =>
      rw [Step.exec_record_of_none h.wired hl] at hrun
      cases hrun
    | some p =>
      obtain ⟨-, -, -, -, hU'⟩ := h.record_recorded hU hl hrun
      exact hU'

/-- Forcing a winner keeps a routed draw unmarked: the mark it sets is on a match the forced
result has just completed. -/
theorem unmarked_forceWinner (h : Routed b []) (hU : b.Unmarked) (id t : Value) :
    (Step.exec (Step.forceWinner id t) b).2.Unmarked := by
  cases hl : b.locate? id with
  | none =>
    rw [Step.exec_forceWinner_of_none h.wired hl]
    exact hU
  | some p =>
    rw [Step.exec_forceWinner h.wired hl]
    split
    · obtain ⟨hR, hsk, hclean⟩ := h.record id { advancing := t, status := .str "COMPLETED" }
      rcases hrun : Step.exec (Step.record id { advancing := t, status := .str "COMPLETED" }) b
        with ⟨_ | m', b'⟩
      · rename_i e
        rw [hrun] at hclean
        obtain ⟨hb', -⟩ := hclean e rfl
        dsimp only at hb' ⊢
        rw [hb']
        exact hU
      · rw [hrun] at hR hsk
        obtain ⟨v, hj, hm, hg, hU'⟩ := h.record_recorded hU hl hrun
        -- the result names the completed state, so the match is completed
        have hs : v.status = .completed := by
          obtain ⟨-, hst, -⟩ := Match.judge_eq_ok hj
          exact (Except.ok.inj hst).symm
        have hc : (b'.game p).isCompleted = true := by
          rw [hg, hm]
          simp [Match.isCompleted, hs]
        have href : b'.findRef? id = some (.knockout p) := by
          rw [findRef?_eq hR.wired, locate?_eq_of_skeleton h.wired hR.wired hsk id, hl]
          rfl
        dsimp only
        rw [href]
        exact hU'.overriddenAt hc t
    · exact hU

end Routed

namespace Generate

/-- A generated knockout draw marks no winner as set by hand. -/
theorem unmarked_build {fmt : Format} {p : Plan} {b : Bracket}
    (hfmt : fmt = .singleElimination ∨ fmt = .doubleElimination) (h2 : 2 ≤ p.teams)
    (hb : build fmt p = .ok b) : ∀ q ∈ b.positions, (b.game q).Unmarked := by
  rcases hfmt with rfl | rfl
  · rw [build, singleElimination_int h2] at hb
    cases hb
    intro q hq
    rw [game_singleDraw (fun h => by simp at h; exact h.2) hq]
    split <;> exact ⟨rfl, rfl⟩
  · rw [build, doubleElimination_int h2] at hb
    cases hb
    intro q hq
    rw [game_doubleDraw (Shape.one_le_ceilLog2 (by omega)) hq, doubleMatch]
    split
    · exact ⟨rfl, rfl⟩
    · split <;> exact ⟨rfl, rfl⟩

end Generate

/-- Placing the teams into a draw with no mark by hand leaves none: seating changes sides, and
the byes are resolved by the cascade. -/
theorem Bracket.Fresh.unmarked_placeTeams {b : Bracket} {n w : Nat} (hF : b.Fresh n w)
    {ids : List String} (hnd : ids.Nodup) (hids : ∀ s ∈ ids, s ≠ "" ∧ s ≠ byeTeam)
    (hlen : ids.length = n) (hU : ∀ q ∈ b.positions, (b.game q).Unmarked) :
    (Step.exec (Step.placeTeams (ids.map .str)) b).2.Unmarked := by
  have hlen' : (ids.map Value.str).length = n := by rw [List.length_map, hlen]
  by_cases hn : n ≤ 2 * w
  · have hseated : (b.seatFirst (ids.map .str)).Unmarked := by
      intro q hq _
      rw [Bracket.Fresh.positions_seatFirst] at hq
      rw [hF.game_seatFirst]
      split
      · have hq' := hU q hq
        unfold Match.seated
        split
        · split <;> exact hq'
        · exact hq'
      · exact hU q hq
    obtain ⟨c, hrun, hR, hUc⟩ :=
      (hF.routed_seatFirst hnd hids hlen hn).resolveByes_unmarked hseated
    rw [hF.exec_placeTeams_of_le hlen' hn hrun hR.wired.fixtures_eq]
    exact hUc
  · obtain ⟨e, he⟩ := hF.exec_placeTeams_of_gt hlen' (by omega)
    rw [he]
    exact fun q hq _ => hU q hq

namespace Reachable

variable {ids : List String} {b : Bracket}

/-- **No open match of a reachable draw is marked as set by hand.** A generated draw has no
mark, and a mark is set only on a match that the same request completes; taking a result back
clears its mark. -/
theorem unmarked (h : Reachable ids b) : b.Unmarked := by
  induction h with
  | seeded fmt p hE hfmt hteams hb =>
    obtain ⟨w, hF⟩ := fresh_of_build hE hfmt hteams hb
    have h2 : (2 : Int) ≤ p.teams := by
      rw [hteams]
      exact_mod_cast hE.two_le
    exact hF.unmarked_placeTeams hE.nodup hE.valid rfl (Generate.unmarked_build hfmt h2 hb)
  | record id r h ih => exact h.routed.unmarked_record ih id r
  | forceWinner id t h ih => exact h.routed.unmarked_forceWinner ih id t
  | resolveByes h ih =>
    obtain ⟨c, hrun, -, hc⟩ := h.routed.resolveByes_unmarked ih
    rw [hrun]
    exact hc

/-- In a reachable draw a result that goes through leaves its match as `Match.recorded` from
the match before and the verdict. -/
theorem record_recorded (h : Reachable ids b) {id : Value} {r : Result} {p : Pos} {m' : Match}
    {b' : Bracket} (hl : b.locate? id = some p)
    (hrun : Step.exec (Step.record id r) b = (.ok m', b')) :
    ∃ v, (b.game p).judge id r = .ok v ∧ m' = (b.game p).recorded v r := by
  obtain ⟨v, hj, hm, -, -⟩ := h.routed.record_recorded h.unmarked hl hrun
  exact ⟨v, hj, hm⟩

end Reachable

end TournamentDraw
