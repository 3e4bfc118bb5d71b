import TournamentDraw.Proofs.Played
import TournamentDraw.Proofs.KnockoutSeeds

/-!
# Results recorded in any order

A run of requests that each record a result completing an open knockout match (`DecidedBy`)
plays those results on the draw it started from (`DecidedBy.plays`): the draw it ends in is
fixed by the results and not by their order. The results are kept per match
(`Bracket.resultsOf`), and requests on distinct matches commute there, so two runs that record
the same results for the same matches play the same results, and end in the same draw
(`Plays.eq_of_plays`).

Each team that moves along a link then stands on the side that link arrives at, and that is
the side its match prefers, except for a loser sent to the match its winner went to. In a
generated draw that happens only in double elimination for two teams, whose one winners match
sends both its teams to the grand final (`Generate.shared_target`).

Main statement: `recorded_results_commute`.
-/

namespace TournamentDraw

/-- A request as the draw keeps it: the id of its match, with its result settled. -/
def settledCall (x : Value × Result) : Value × Result := (x.1, x.2.settled)

/-- A request recording the result `x.2` for the match `x.1` of the draw `b` that finds the
match open and completes it, leaving `b'`. -/
def Decides (b : Bracket) (x : Value × Result) (b' : Bracket) : Prop :=
  ∃ p m, b.locate? x.1 = some p ∧ (b.game p).isCompleted = false ∧
    Step.exec (Step.record x.1 x.2) b = (.ok m, b') ∧ m.isCompleted = true

/-- A request on an open match decides it when the match it returns is completed. -/
theorem Decides.of_completed {b : Bracket} {x : Value × Result} {p : Pos}
    (hl : b.locate? x.1 = some p) (hopen : (b.game p).isCompleted = false)
    (hdone : (match (Step.exec (Step.record x.1 x.2) b).1 with
      | .ok m => m.isCompleted
      | .error _ => false) = true) :
    Decides b x (Step.exec (Step.record x.1 x.2) b).2 := by
  cases hrun : Step.exec (Step.record x.1 x.2) b with
  | mk out b' =>
    rw [hrun] at hdone
    cases out with
    | error e => cases hdone
    | ok m => exact ⟨p, m, hl, hopen, hrun, hdone⟩

/-- A run of requests, each completing an open knockout match. -/
inductive DecidedBy : Bracket → List (Value × Result) → Bracket → Prop
  | nil (b : Bracket) : DecidedBy b [] b
  | cons {b b' c : Bracket} {x : Value × Result} {xs : List (Value × Result)} :
      Decides b x b' → DecidedBy b' xs c → DecidedBy b (x :: xs) c

namespace Bracket

variable {b₀ : Bracket}

/-- The results `D` with the result of one more request played at the place of its match. -/
def playCall (b₀ : Bracket) (D : Pos → Option Result) (x : Value × Result) :
    Pos → Option Result :=
  match b₀.locate? x.1 with
  | some p => Function.update D p (some x.2.settled)
  | none => D

/-- The results a list of requests plays on the draw `b₀`. -/
def resultsOf (b₀ : Bracket) (cs : List (Value × Result)) : Pos → Option Result :=
  cs.foldl b₀.playCall fun _ => none

theorem resultsOf_map_settledCall (b₀ : Bracket) (cs : List (Value × Result)) :
    b₀.resultsOf (cs.map settledCall) = b₀.resultsOf cs := by
  rw [resultsOf, List.foldl_map]
  rfl

theorem playCall_comm {x y : Value × Result} (h : b₀.locate? x.1 ≠ b₀.locate? y.1)
    (D : Pos → Option Result) :
    b₀.playCall (b₀.playCall D x) y = b₀.playCall (b₀.playCall D y) x := by
  cases hx : b₀.locate? x.1 with
  | none => simp only [playCall, hx]
  | some p =>
    cases hy : b₀.locate? y.1 with
    | none => simp only [playCall, hx, hy]
    | some q =>
      have hpq : p ≠ q := fun he => h (by rw [hx, hy, he])
      simp only [playCall, hx, hy]
      exact Function.update_comm hpq _ _ D

/-- **Results commute.** Requests on distinct matches that record the same settled results, in
any two orders, play the same results. -/
theorem resultsOf_perm {cs cs' : List (Value × Result)}
    (hperm : (cs.map settledCall).Perm (cs'.map settledCall))
    (hnd : (cs.map fun x => b₀.locate? x.1).Nodup) : b₀.resultsOf cs = b₀.resultsOf cs' := by
  have hnd' : ((cs.map settledCall).map fun x => b₀.locate? x.1).Nodup := by
    rw [List.map_map]
    exact hnd
  rw [← resultsOf_map_settledCall b₀ cs, ← resultsOf_map_settledCall b₀ cs']
  refine hperm.foldl_eq' (fun x hx y hy D => ?_) _
  -- two requests of the list on one match are the same request
  by_cases he : b₀.locate? x.1 = b₀.locate? y.1
  · rw [List.inj_on_of_nodup_map hnd' hx hy he]
  · exact playCall_comm he D

end Bracket

namespace DecidedBy

variable {b₀ b c : Bracket} {D : Pos → Option Result} {cs : List (Value × Result)}

/-- **A run plays its results.** From the draw `b₀` with the results `D` played, a run of
requests that each complete an open match ends in `b₀` with their results played as well. The
requests are on distinct matches, none of which had a result in `D`. -/
theorem plays (hrun : DecidedBy b cs c) (h : Bracket.Plays b₀ D b []) :
    Bracket.Plays b₀ (cs.foldl b₀.playCall D) c [] ∧ (cs.map fun x => b₀.locate? x.1).Nodup ∧
      ∀ x ∈ cs, ∃ p, b₀.locate? x.1 = some p ∧ D p = none := by
  induction hrun generalizing D with
  | nil b => exact ⟨h, List.nodup_nil, fun _ hx => absurd hx List.not_mem_nil⟩
  | @cons b b' c x xs hx _ ih =>
    obtain ⟨p, m, hl, hopen, hstep, hdone⟩ := hx
    obtain ⟨hD, h'⟩ := h.record hl hopen hstep hdone
    have hl₀ : b₀.locate? x.1 = some p := (h.locate x.1).symm.trans hl
    have hcall : b₀.playCall D x = Function.update D p (some x.2.settled) := by
      simp only [Bracket.playCall, hl₀]
    obtain ⟨hc, hnd, hfresh⟩ := ih h'
    -- the later requests are on matches with no result yet, so not on this one
    have hrest : ∀ y ∈ xs, ∃ q, b₀.locate? y.1 = some q ∧ q ≠ p ∧ D q = none := fun y hy => by
      obtain ⟨q, hq, hqD⟩ := hfresh y hy
      have hne : q ≠ p := fun he => by
        rw [he, Function.update_self] at hqD
        cases hqD
      exact ⟨q, hq, hne, by rwa [Function.update_of_ne hne] at hqD⟩
    refine ⟨by rw [List.foldl_cons, hcall]; exact hc, ?_, fun y hy => ?_⟩
    · rw [List.map_cons, List.nodup_cons]
      refine ⟨fun hmem => ?_, hnd⟩
      obtain ⟨y, hy, hyx⟩ := List.mem_map.1 hmem
      obtain ⟨q, hq, hne, -⟩ := hrest y hy
      rw [hq, hl₀, Option.some.injEq] at hyx
      exact hne hyx
    · rcases List.mem_cons.1 hy with rfl | hy
      · exact ⟨p, hl₀, hD⟩
      · obtain ⟨q, hq, -, hqD⟩ := hrest y hy
        exact ⟨q, hq, hqD⟩

end DecidedBy

namespace Shape

/-- The binary64 logarithm never falls below the integer one. -/
theorem log2_le_ceilLog2 {n : Nat} (h : 2 ≤ n) : Nat.log2 n ≤ ceilLog2 n := by
  unfold ceilLog2
  split
  · unfold ceilLog2Split
    dsimp only
    split <;> split <;> omega
  · unfold ceilLog2Finite
    obtain ⟨he, hm⟩ := ofInt_exp_mant h
    have hm' : 52 ≤ Nat.log2 (Binary64.ofInt n).mant.toNat :=
      (Nat.le_log2 (by omega)).2 hm
    dsimp only
    rw [he]
    split <;> [skip; split] <;> omega

/-- One round is taken by two teams only. -/
theorem eq_two_of_ceilLog2_eq_one {n : Nat} (h : 2 ≤ n) (h1 : ceilLog2 n = 1) : n = 2 := by
  by_cases hlt : n < 2 ^ 40
  · have hle := (pow_ceilLog2_bounds h hlt).1
    rw [h1] at hle
    omega
  · have hlog := log2_le_ceilLog2 h
    have h40 : 40 ≤ Nat.log2 n := (Nat.le_log2 (by omega)).2 (by omega)
    omega

end Shape

namespace Generate

theorem singleLink_ne {k : Nat} {third : Bool} {p q : Pos}
    (h : singleLink k third p .loserNext = some q) : singleLink k third p .next ≠ some q := by
  intro h'
  simp only [singleLink] at h h'
  split at h <;> split at h' <;> simp only [Option.some.injEq, reduceCtorEq] at h h'
  subst h
  simp only [Pos.mk.injEq] at h'
  omega

/-- **A loser goes where its winner went only in double elimination for two teams.** In a
generated single or double elimination, the two links of a match lead to the same match only
when the draw is double elimination for two teams: its one winners match sends both its teams
to the grand final. -/
theorem shared_target {fmt : Format} {plan : Plan} {b : Bracket}
    (hfmt : fmt = .singleElimination ∨ fmt = .doubleElimination) (h2 : 2 ≤ plan.teams)
    (hb : build fmt plan = .ok b) {p q : Pos} (hl : b.dest p .loserNext = some q)
    (hn : b.dest p .next = some q) : fmt = .doubleElimination ∧ plan.teams = 2 := by
  rcases hfmt with rfl | rfl
  · rw [build, singleElimination_int h2] at hb
    cases hb
    have hL := @laid_singleDraw (Shape.ceilLog2 plan.teams.toNat)
      (2 ^ Shape.ceilLog2 plan.teams.toNat - plan.teams.toNat)
      (plan.thirdPlace.truthy && decide (2 ≤ Shape.ceilLog2 plan.teams.toNat)) plan.thirdPlace
      (Value.ofOptStr plan.seed) (fun h => by simp at h; exact h.2)
    have hp := hL.mem_of_dest hl
    rw [hL.dest_eq hp] at hl hn
    exact absurd hn (singleLink_ne hl)
  · rw [build, doubleElimination_int h2] at hb
    cases hb
    have hk := Shape.one_le_ceilLog2 (n := plan.teams.toNat) (by omega)
    have hL := @laid_doubleDraw _ (2 ^ Shape.ceilLog2 plan.teams.toNat - plan.teams.toNat)
      (Value.ofOptStr plan.seed) hk
    have hp := hL.mem_of_dest hl
    rw [hL.dest_eq hp] at hl hn
    -- with two winners rounds or more the loser drops into the losers rounds
    by_cases hk2 : 2 ≤ Shape.ceilLog2 plan.teams.toNat
    · exact absurd hn (doubleLink_next_ne hk2 hl)
    · have h1 : Shape.ceilLog2 plan.teams.toNat = 1 := by omega
      have := Shape.eq_two_of_ceilLog2_eq_one (by omega) h1
      exact ⟨rfl, by omega⟩

end Generate

namespace Bracket

variable {b c : Bracket}

theorem dest_eq_of_skeleton (hw : b.Wired) (hw' : c.Wired) (h : c.skeleton = b.skeleton)
    (p : Pos) (k : Link) : c.dest p k = b.dest p k := by
  rw [dest, dest, game_target_eq_of_skeleton h, locate?_eq_of_skeleton hw hw' h]

/-- A team that moves along a link takes the side its match prefers, unless it is a loser sent
to the match its winner went to. -/
theorem arrival_eq_preferred {p q : Pos} {k : Link} (hd : b.dest p k = some q)
    (hne : b.arrival p k ≠ b.preferred p q) :
    k = .loserNext ∧ b.dest p .loserNext = some q ∧ b.dest p .next = some q := by
  have ha : b.arrival p k = if k = .loserNext ∧ b.dest p .next = some q then
      (b.preferred p q).other else b.preferred p q := by
    rw [arrival, hd]
  rw [ha] at hne
  by_cases hc : k = .loserNext ∧ b.dest p .next = some q
  · obtain ⟨rfl, hn⟩ := hc
    exact ⟨rfl, hd, hn⟩
  · rw [if_neg hc] at hne
    exact absurd rfl hne

/-- A generated knockout draw with its entrants placed is itself with no result played. -/
theorem Plays.placed {ids : List String} {fmt : Format} {plan : Plan} {b : Bracket}
    (hE : Entrants ids) (hfmt : fmt = .singleElimination ∨ fmt = .doubleElimination)
    (hteams : plan.teams = ids.length) (hb : Generate.build fmt plan = .ok b) :
    Plays (Step.exec (Step.placeTeams (ids.map .str)) b).2 (fun _ => none)
      (Step.exec (Step.placeTeams (ids.map .str)) b).2 [] := by
  obtain ⟨w, hF⟩ := Reachable.fresh_of_build hE hfmt hteams hb
  have hlen : (ids.map Value.str).length = ids.length := List.length_map _
  by_cases hn : ids.length ≤ 2 * w
  · -- the teams are seated and the bye pass leaves no open match facing the bye
    obtain ⟨c, hpass, hS, -⟩ := Slotted.resolveByes (hF.slotted_seatFirst hE.nodup hE.valid rfl hn)
    obtain ⟨c', hpass', hcl⟩ := Clearing.resolveByes
      (hF.routed_seatFirst hE.nodup hE.valid rfl hn) (hF.open_seatFirst _)
      (hF.team1_seatFirst_ne hE.valid)
    rw [hpass, Prod.mk.injEq] at hpass'
    obtain ⟨-, rfl⟩ := hpass'
    rw [hF.exec_placeTeams_of_le hlen hn hpass hS.routed.wired.fixtures_eq]
    exact Plays.start hS fun q hq => hcl.byeWinner?_eq_none hq
  · -- refused for want of room, the draw stays fresh, with no team on a first side
    obtain ⟨e, he⟩ := hF.exec_placeTeams_of_gt hlen (by omega)
    rw [he]
    exact Plays.start hF.slotted fun q hq => by
      simp [Match.byeWinner?, (hF.blank q hq).1, Value.isNull]

end Bracket

/-- **Recording results commutes.** In a generated single or double elimination with its
entrants placed, two runs of requests, each completing an open match, that record the same
results for the same matches in any two orders end in the same draw. In it every side of a
match beyond the first round holds the team sent along the link that arrives there, and a team
takes another side than the one its match prefers only in double elimination for two teams. -/
theorem recorded_results_commute {ids : List String} {fmt : Format} {plan : Plan} {b : Bracket}
    (hE : Entrants ids) (hfmt : fmt = .singleElimination ∨ fmt = .doubleElimination)
    (hteams : plan.teams = ids.length) (hb : Generate.build fmt plan = .ok b)
    {cs cs' : List (Value × Result)} {c c' : Bracket}
    (hrun : DecidedBy (Step.exec (Step.placeTeams (ids.map .str)) b).2 cs c)
    (hrun' : DecidedBy (Step.exec (Step.placeTeams (ids.map .str)) b).2 cs' c')
    (hperm : (cs.map settledCall).Perm (cs'.map settledCall)) :
    c = c' ∧ c.SidesSent [] ∧
      ∀ p k q, c.dest p k = some q → c.arrival p k ≠ c.preferred p q →
        fmt = .doubleElimination ∧ ids.length = 2 := by
  have h₀ := Bracket.Plays.placed hE hfmt hteams hb
  obtain ⟨hc, hnd, -⟩ := hrun.plays h₀
  obtain ⟨hc', -, -⟩ := hrun'.plays h₀
  have hD := Bracket.resultsOf_perm hperm hnd
  rw [Bracket.resultsOf, Bracket.resultsOf] at hD
  rw [hD] at hc
  refine ⟨hc.eq_of_plays hc', hc.slotted.exact, fun p k q hd hne => ?_⟩
  -- the links of the run's draw are those of the generated draw
  obtain ⟨w, hF⟩ := Reachable.fresh_of_build hE hfmt hteams hb
  obtain ⟨hR, hsk⟩ := hF.routed_placeTeams hE.nodup hE.valid rfl
  have hdest : ∀ k', c'.dest p k' = b.dest p k' := fun k' =>
    (hc'.links p k').1.trans (Bracket.dest_eq_of_skeleton hF.wired hR.wired hsk p k')
  obtain ⟨-, hl, hn⟩ := Bracket.arrival_eq_preferred hd hne
  have h2 : (2 : Int) ≤ plan.teams := by
    rw [hteams]
    exact_mod_cast hE.two_le
  have hcc : c = c' := hc.eq_of_plays hc'
  subst hcc
  obtain ⟨hfmt', hn2⟩ := Generate.shared_target hfmt h2 hb (by rw [← hdest]; exact hl)
    (by rw [← hdest]; exact hn)
  exact ⟨hfmt', by omega⟩

/-- Four teams in single elimination: the semi-finals recorded in either order, one of them
naming the completed state, and then the final, end in the same draw. -/
theorem results_commute_four_teams :
    ∃ b c c', Generate.build .singleElimination { teams := 4 } = .ok b ∧
      DecidedBy (Step.exec (Step.placeTeams (["ana", "bo", "cy", "dee"].map .str)) b).2
        [(.str "match_1", { score1 := .int 2, score2 := .int 1 }),
          (.str "match_2", { score1 := .int 0, score2 := .int 3 }),
          (.str "match_3", { score1 := .int 1, score2 := .int 0 })] c ∧
      DecidedBy (Step.exec (Step.placeTeams (["ana", "bo", "cy", "dee"].map .str)) b).2
        [(.str "match_2", { score1 := .int 0, score2 := .int 3, status := .str "COMPLETED" }),
          (.str "match_1", { score1 := .int 2, score2 := .int 1 }),
          (.str "match_3", { score1 := .int 1, score2 := .int 0 })] c' ∧
      (c = c' ∧ c.SidesSent [] ∧
        ∀ p k q, c.dest p k = some q → c.arrival p k ≠ c.preferred p q →
          Format.singleElimination = .doubleElimination ∧ ["ana", "bo", "cy", "dee"].length = 2) := by
  have hk : Shape.ceilLog2 4 = 2 := by
    have hbound := Shape.pow_ceilLog2_bounds (n := 4) (by decide) (by decide)
    have hlog : Nat.log2 4 ≤ Shape.ceilLog2 4 := Shape.log2_le_ceilLog2 (by decide)
    have h2 : Nat.log2 4 = 2 := by decide
    have h8 : Shape.ceilLog2 4 < 3 := by
      by_contra hge
      have : 2 ^ 3 ≤ 2 ^ Shape.ceilLog2 4 := Nat.pow_le_pow_right (by decide) (by omega)
      omega
    omega
  have hb : Generate.build .singleElimination { teams := 4 } =
      .ok (Generate.singleDraw 2 0 false (.bool false) .null) := by
    have h4 : (4 : Int).toNat = 4 := rfl
    rw [Generate.build, Generate.singleElimination_int (by decide), h4, hk]
    rfl
  have hrun : DecidedBy (Step.exec (Step.placeTeams (["ana", "bo", "cy", "dee"].map .str))
      (Generate.singleDraw 2 0 false (.bool false) .null)).2
      [(.str "match_1", { score1 := .int 2, score2 := .int 1 }),
        (.str "match_2", { score1 := .int 0, score2 := .int 3 }),
        (.str "match_3", { score1 := .int 1, score2 := .int 0 })] _ :=
    .cons (Decides.of_completed (p := ⟨0, 0⟩) (by decide) (by decide) (by decide))
      (.cons (Decides.of_completed (p := ⟨0, 1⟩) (by decide) (by decide) (by decide))
        (.cons (Decides.of_completed (p := ⟨1, 0⟩) (by decide) (by decide) (by decide)) (.nil _)))
  have hrun' : DecidedBy (Step.exec (Step.placeTeams (["ana", "bo", "cy", "dee"].map .str))
      (Generate.singleDraw 2 0 false (.bool false) .null)).2
      [(.str "match_2", { score1 := .int 0, score2 := .int 3, status := .str "COMPLETED" }),
        (.str "match_1", { score1 := .int 2, score2 := .int 1 }),
        (.str "match_3", { score1 := .int 1, score2 := .int 0 })] _ :=
    .cons (Decides.of_completed (p := ⟨0, 1⟩) (by decide) (by decide) (by decide))
      (.cons (Decides.of_completed (p := ⟨0, 0⟩) (by decide) (by decide) (by decide))
        (.cons (Decides.of_completed (p := ⟨1, 0⟩) (by decide) (by decide) (by decide)) (.nil _)))
  exact ⟨_, _, _, hb, hrun, hrun', recorded_results_commute ⟨by decide, by decide, by decide⟩
    (.inl rfl) rfl hb hrun hrun' (List.Perm.swap _ _ _)⟩

end TournamentDraw
