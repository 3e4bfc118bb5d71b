import TournamentDraw.Proofs.Seeding
import TournamentDraw.Proofs.SingleDraw
import TournamentDraw.Proofs.DoubleDraw

/-!
# Reachable knockout draws

A knockout draw is reachable when it was generated for a list of entrants, the entrants were
placed into it, and any results were then recorded, forced or cascaded through byes, refused
requests included. Every reachable draw is routed, and from the routing invariant follow the
two facts a caller relies on: every team beyond the first round stands where exactly the
completed matches that lead there sent it, and a team stands in at most one match still to be
played. A refused request changes nothing.
-/

open scoped BigOperators

namespace TournamentDraw

namespace Match

theorem sides_of_decided {m : Match} (h : m.Decided) : m.sides = {m.winner} + {m.loser} := by
  obtain ⟨n1, n2, hwl⟩ := h
  have h1 : m.team1.isNull = false := by cases ht : m.team1 <;> simp_all [Value.isNull]
  have h2 : m.team2.isNull = false := by cases ht : m.team2 <;> simp_all [Value.isNull]
  rcases hwl with ⟨hw, hl⟩ | ⟨hw, hl⟩
  · simp [sides, h1, h2, hw, hl]
  · simp [sides, h1, h2, hw, hl, add_comm]

end Match

namespace Routed

open TournamentDraw.Bracket

variable {b : Bracket} {p q : Pos}

/-- A completed match of a routed draw sends a team along each of its links. -/
theorem mover_truthy (h : Routed b []) (hp : p ∈ b.positions)
    (hc : (b.game p).isCompleted = true) (k : Link) : ((b.game p).mover k).truthy = true := by
  obtain ⟨n1, n2, hwl⟩ := h.decided p hp hc (by simp [Pending.decisions])
  obtain ⟨t1, t2⟩ := h.textual p hp
  have hmem : (b.game p).mover k = (b.game p).team1 ∨ (b.game p).mover k = (b.game p).team2 := by
    cases k <;> rcases hwl with ⟨hw, hl⟩ | ⟨hw, hl⟩ <;> simp [Match.mover, hw, hl]
  rcases hmem with he | he
  · rw [he]
    exact t1.truthy_iff.2 n1
  · rw [he]
    exact t2.truthy_iff.2 n2

open scoped Classical in
/-- In a routed draw a match sends a team along a link exactly when it is completed and the
link names the receiving match. -/
theorem sent_eq (h : Routed b []) (hp : p ∈ b.positions) (hq : q ∈ b.positions) (k : Link) :
    b.sent p k q = if (b.game p).isCompleted = true ∧ (b.game p).target k = (b.game q).id
      then {(b.game p).mover k} else 0 := by
  unfold sent
  by_cases hc : (b.game p).isCompleted = true
  · simp only [hc, h.mover_truthy hp hc k, dest_eq_some_iff h.wired, hq, true_and, and_true,
      eq_comm]
  · simp [hc]

/-- All that a match sends along a link, over every place, is its mover, and only once it is
completed: a link names one match. -/
theorem sum_sent_le (h : Routed b []) (hp : p ∈ b.positions) (k : Link) :
    ∑ q ∈ b.positions, b.sent p k q ≤
      if (b.game p).isCompleted = true then {(b.game p).mover k} else 0 := by
  classical
  cases hd : b.dest p k with
  | none => simp [sent, hd]
  | some q₀ =>
    have hsent : ∀ q ∈ b.positions, b.sent p k q =
        if q₀ = q then b.sent p k q₀ else 0 := by
      intro q _
      by_cases hq : q₀ = q
      · rw [if_pos hq, hq]
      · rw [if_neg hq]
        simp [sent, hd, hq]
    rw [Finset.sum_congr rfl hsent, Finset.sum_ite_eq]
    split_ifs with hq hc hc
    · simp only [sent, hc, hd, h.mover_truthy hp hc, and_self, if_true, le_refl]
    · simp [sent, hc]
    · exact Multiset.zero_le _
    · exact Multiset.zero_le _

/-- Every team sent anywhere is a team of a completed match: each completed match sends its
winner and its loser at most once. -/
theorem sum_inflow_le (h : Routed b []) :
    ∑ q ∈ b.positions, b.inflow q ≤
      ∑ p ∈ b.positions.filter (fun p => (b.game p).isCompleted = true), (b.game p).sides := by
  classical
  have hdecided : ∀ p ∈ b.positions, (b.game p).isCompleted = true →
      (b.game p).sides = {(b.game p).mover .next} + {(b.game p).mover .loserNext} :=
    fun p hp hc => Match.sides_of_decided (h.decided p hp hc (by simp [Pending.decisions]))
  calc ∑ q ∈ b.positions, b.inflow q
      = ∑ p ∈ b.positions, (∑ q ∈ b.positions, b.sent p .next q +
          ∑ q ∈ b.positions, b.sent p .loserNext q) := by
        simp only [inflow]
        rw [Finset.sum_comm]
        exact Finset.sum_congr rfl fun p _ => Finset.sum_add_distrib
    _ ≤ ∑ p ∈ b.positions, (if (b.game p).isCompleted = true then
          {(b.game p).mover .next} + {(b.game p).mover .loserNext} else 0) := by
        refine Finset.sum_le_sum fun p hp => ?_
        have := add_le_add (h.sum_sent_le hp .next) (h.sum_sent_le hp .loserNext)
        split_ifs at this ⊢ <;> simpa using this
    _ = ∑ p ∈ b.positions.filter (fun p => (b.game p).isCompleted = true), (b.game p).sides := by
        rw [Finset.sum_filter]
        exact Finset.sum_congr rfl fun p hp => by
          split_ifs with hc
          · exact (hdecided p hp hc).symm
          · rfl

/-- The teams on the sides of every match are the first round's and those of completed
matches, each sent on at most once. -/
theorem sum_sides_le (h : Routed b []) :
    ∑ q ∈ b.positions, (b.game q).sides ≤ b.firstSides +
      ∑ p ∈ b.positions.filter (fun p => (b.game p).isCompleted = true), (b.game p).sides := by
  classical
  have hlater : ∑ q ∈ b.positions.filter (fun q => ¬q.round = 0), (b.game q).sides =
      ∑ q ∈ b.positions.filter (fun q => ¬q.round = 0), b.inflow q := by
    refine Finset.sum_congr rfl fun q hq => ?_
    rw [Finset.mem_filter] at hq
    have := h.balanced q hq.1 (Nat.pos_of_ne_zero hq.2)
    rwa [owed_nil, add_zero] at this
  rw [← Finset.sum_filter_add_sum_filter_not b.positions (fun q => q.round = 0), hlater]
  refine add_le_add le_rfl (le_trans ?_ h.sum_inflow_le)
  exact Finset.sum_le_sum_of_subset (Finset.filter_subset _ _)

/-- The teams on the sides of the matches still to be played are at most those of the first
round. -/
theorem open_sides_le (h : Routed b []) :
    ∑ q ∈ b.positions.filter (fun q => (b.game q).isCompleted = false), (b.game q).sides ≤
      b.firstSides := by
  classical
  have hsplit := Finset.sum_filter_add_sum_filter_not b.positions
    (fun p => (b.game p).isCompleted = true) (fun q => (b.game q).sides)
  simp only [Bool.not_eq_true] at hsplit
  have := h.sum_sides_le
  rw [← hsplit, add_comm b.firstSides] at this
  exact le_of_add_le_add_left this

open scoped Classical in
/-- **A team other than the bye stands in at most one match still to be played**, and there
on one side only. -/
theorem count_open_le (h : Routed b []) {x : Value} (hx : x.eqv (.str byeTeam) = false) :
    ∑ q ∈ b.positions.filter (fun q => (b.game q).isCompleted = false),
      (b.game q).sides.count x ≤ 1 := by
  rw [← Multiset.count_sum']
  calc _ ≤ b.firstSides.count x := Multiset.count_le_of_le x h.open_sides_le
    _ = (b.firstSides.filter fun v => !v.eqv (.str byeTeam)).count x := by
        rw [Multiset.count_filter_of_pos (by simp [hx])]
    _ ≤ 1 := Multiset.nodup_iff_count_le_one.1 h.first x

theorem eq_of_mem_open (h : Routed b []) {x : Value} (hx : x.eqv (.str byeTeam) = false)
    (hp : p ∈ b.positions) (hq : q ∈ b.positions) (hop : (b.game p).isCompleted = false)
    (hoq : (b.game q).isCompleted = false) (hxp : x ∈ (b.game p).sides)
    (hxq : x ∈ (b.game q).sides) : p = q := by
  classical
  by_contra hpq
  have hsub : ({p, q} : Finset Pos) ⊆
      b.positions.filter (fun q => (b.game q).isCompleted = false) := by
    intro r hr
    rcases Finset.mem_insert.1 hr with rfl | hr
    · exact Finset.mem_filter.2 ⟨hp, hop⟩
    · rw [Finset.mem_singleton.1 hr]
      exact Finset.mem_filter.2 ⟨hq, hoq⟩
  have hpair := Finset.sum_le_sum_of_subset (f := fun q => (b.game q).sides.count x) hsub
  rw [Finset.sum_pair hpq] at hpair
  have := h.count_open_le hx
  have := Multiset.one_le_count_iff_mem.2 hxp
  have := Multiset.one_le_count_iff_mem.2 hxq
  omega

open scoped Classical in
/-- What one link brings into a match of a routed draw: the movers of the completed matches
whose link names it. -/
theorem sum_sent_eq (h : Routed b []) (hq : q ∈ b.positions) (k : Link) :
    ∑ p ∈ b.positions, b.sent p k q =
      ∑ p ∈ b.positions.filter (fun p => (b.game p).isCompleted = true ∧
        (b.game p).target k = (b.game q).id), {(b.game p).mover k} := by
  rw [Finset.sum_filter]
  exact Finset.sum_congr rfl fun p hp => h.sent_eq hp hq k

end Routed

/-- Entrants of a knockout draw: at least two, distinct, none empty and none the bye. -/
structure Entrants (ids : List String) : Prop where
  two_le : 2 ≤ ids.length
  nodup : ids.Nodup
  valid : ∀ s ∈ ids, s ≠ "" ∧ s ≠ byeTeam

/-- The knockout draws reachable for a list of entrants: a single or double elimination
generated for as many teams, the entrants placed into it, then any requests to record a
result, force a winner or cascade the byes, whatever their outcome. -/
inductive Reachable (ids : List String) : Bracket → Prop
  | seeded (fmt : Format) (p : Plan) {b : Bracket} (hE : Entrants ids)
      (hfmt : fmt = .singleElimination ∨ fmt = .doubleElimination) (hteams : p.teams = ids.length)
      (hb : Generate.build fmt p = .ok b) :
      Reachable ids (Step.exec (Step.placeTeams (ids.map .str)) b).2
  | record {b : Bracket} (id : Value) (r : Result) :
      Reachable ids b → Reachable ids (Step.exec (Step.record id r) b).2
  | forceWinner {b : Bracket} (id t : Value) :
      Reachable ids b → Reachable ids (Step.exec (Step.forceWinner id t) b).2
  | resolveByes {b : Bracket} :
      Reachable ids b → Reachable ids (Step.exec Step.resolveByes b).2

open scoped Classical in
/-- Where the teams of a knockout draw stand. Every match beyond the first round holds exactly
the winners of the completed matches whose next match it is and the losers of those whose
losers' match it is, and an entrant stands in at most one match still to be played. -/
structure Bracket.TeamsRouted (ids : List String) (b : Bracket) : Prop where
  sides_eq : ∀ q ∈ b.positions, 0 < q.round → (b.game q).sides =
    ∑ p ∈ b.positions.filter (fun p => (b.game p).isCompleted = true ∧
      (b.game p).next = (b.game q).id), {(b.game p).winner} +
    ∑ p ∈ b.positions.filter (fun p => (b.game p).isCompleted = true ∧
      (b.game p).loserNext = (b.game q).id), {(b.game p).loser}
  open_unique : ∀ s ∈ ids, ∀ p ∈ b.positions, ∀ q ∈ b.positions,
    (b.game p).isCompleted = false → (b.game q).isCompleted = false →
    Value.str s ∈ (b.game p).sides → Value.str s ∈ (b.game q).sides → p = q

namespace Routed

variable {b : Bracket}

/-- The routing invariant, read with no cascade under way, places the teams of entrants. -/
theorem teamsRouted (h : Routed b []) {ids : List String} (hE : Entrants ids) :
    b.TeamsRouted ids where
  sides_eq q hq hr := by
    have hbal := h.balanced q hq hr
    rw [Bracket.owed_nil, add_zero] at hbal
    rw [hbal, Bracket.inflow, Finset.sum_add_distrib, h.sum_sent_eq hq, h.sum_sent_eq hq]
    rfl
  open_unique s hs p hp q hq hop hoq hsp hsq := by
    have hx : (Value.str s).eqv (.str byeTeam) = false := by
      cases he : (Value.str s).eqv (.str byeTeam)
      · rfl
      · exact absurd (Value.str.inj (Value.eqv_str_iff.1 he)).symm (hE.valid s hs).2
    exact h.eq_of_mem_open hx hp hq hop hoq hsp hsq

end Routed

namespace Reachable

variable {ids : List String} {b : Bracket}

theorem entrants (h : Reachable ids b) : Entrants ids := by
  induction h with
  | seeded _ _ hE => exact hE
  | record _ _ _ ih => exact ih
  | forceWinner _ _ _ ih => exact ih
  | resolveByes _ ih => exact ih

/-- A generated knockout draw for the entrants is fresh. -/
theorem fresh_of_build {fmt : Format} {p : Plan} (hE : Entrants ids)
    (hfmt : fmt = .singleElimination ∨ fmt = .doubleElimination) (hteams : p.teams = ids.length)
    (hb : Generate.build fmt p = .ok b) : ∃ w, b.Fresh ids.length w := by
  have h2 : (2 : Int) ≤ p.teams := by
    rw [hteams]
    exact_mod_cast hE.two_le
  have hn : p.teams.toNat = ids.length := by
    rw [hteams, Int.toNat_natCast]
  rw [← hn]
  rcases hfmt with rfl | rfl
  · exact Generate.fresh_singleElimination h2 hb
  · exact Generate.fresh_doubleElimination h2 hb

/-- **Every reachable draw is routed.** Placing the entrants routes the fresh draw, and each
request keeps the invariant, refused or not. -/
theorem routed (h : Reachable ids b) : Routed b [] := by
  induction h with
  | seeded fmt p hE hfmt hteams hb =>
    obtain ⟨w, hF⟩ := fresh_of_build hE hfmt hteams hb
    exact (hF.routed_placeTeams hE.nodup hE.valid rfl).1
  | record id r _ ih => exact (ih.record id r).1
  | forceWinner id t _ ih => exact (ih.forceWinner id t).1
  | resolveByes _ ih =>
    obtain ⟨c, hrun, hc, -⟩ := ih.resolveByes
    rw [hrun]
    exact hc

theorem teams_routed (h : Reachable ids b) : b.TeamsRouted ids :=
  h.routed.teamsRouted h.entrants

theorem teams_routed_two :
    ∃ b, Reachable ["ana", "bo"] b ∧ b.TeamsRouted ["ana", "bo"] := by
  have hE : Entrants ["ana", "bo"] := ⟨by decide, by decide, by decide⟩
  have h := Reachable.seeded .singleElimination { teams := 2 } hE (.inl rfl) rfl
    (Generate.singleElimination_int (by decide) _ _)
  exact ⟨_, h, teams_routed h⟩

/-- **A refused request changes nothing.** In a reachable draw, recording a result or forcing
a winner is never refused for a full match or a link that leads nowhere, and a refusal leaves
the draw as it was. -/
theorem refuses_cleanly (h : Reachable ids b) :
    (∀ id r, RefusesCleanly b id (Step.exec (Step.record id r) b)) ∧
      ∀ id t, RefusesCleanly b id (Step.exec (Step.forceWinner id t) b) :=
  ⟨fun id r => (h.routed.record id r).2.2, fun id t => (h.routed.forceWinner id t).2.2⟩

theorem refuses_cleanly_two :
    ∃ b, Reachable ["ana", "bo"] b ∧
      (∀ id r, RefusesCleanly b id (Step.exec (Step.record id r) b)) ∧
        ∀ id t, RefusesCleanly b id (Step.exec (Step.forceWinner id t) b) := by
  have hE : Entrants ["ana", "bo"] := ⟨by decide, by decide, by decide⟩
  have h := Reachable.seeded .singleElimination { teams := 2 } hE (.inl rfl) rfl
    (Generate.singleElimination_int (by decide) _ _)
  exact ⟨_, h, refuses_cleanly h⟩

end Reachable

end TournamentDraw
