import TournamentDraw.Proofs.Circle
import TournamentDraw.Proofs.Layout
import TournamentDraw.Bracket.Placement

/-!
# Round robin fixtures

A round robin lists one fixture for every pair of the circle method's schedule, round after
round, with its round number and its two slots (`scheduleFixtures`); a league adds a return leg,
the same fixtures with their rounds shifted past the first leg and the slots swapped. Placing
teams then puts the team of each slot on its side (`Step.exec_placeTeams_of_slots`).

Fixtures with teams placed are read through what they show of each game, its round and its two
sides: they `Plays` a schedule when these are, in order, the rounds and the teams of the
schedule's pairs. Every count of sides, every round's teams and every round number then comes
from the schedule, where the circle method settles them.

Main statement: `fixtures_pair_every_team`. After placing `n` distinct teams, a league of two
legs or more has every ordered pair of teams as home and away side in exactly one fixture, its
first leg in rounds `1, …, R` and its return leg in rounds `R + 1, …, 2 R` for the `R` rounds of
the schedule; no team plays twice in a round and no two fixtures share an id. A league of one
leg and a round robin have every two teams meet in exactly one fixture, and so do the fixtures
of a drawn group, all under the group's letter.
-/

namespace TournamentDraw

/-- The team a fixture slot names among the teams placed: the team at an integer slot, none
otherwise. -/
def slotValue (teams : List Value) : Value → Value
  | .int a => Step.teamAt teams a
  | _ => .null

/-- A fixture with the teams of its two slots on its sides. -/
def Match.seatSlots (teams : List Value) (m : Match) : Match :=
  { m with team1 := slotValue teams m.slot1, team2 := slotValue teams m.slot2 }

/-- Slots that name places of a list of teams. -/
def Match.SlotsWithin (n : Nat) (m : Match) : Prop :=
  ∃ a c, a < n ∧ c < n ∧ m.slot1 = .int a ∧ m.slot2 = .int c

namespace Step

theorem exec_slotTeam_of_lt {teams : List Value} {a : Nat} (ha : a < teams.length) (b : Bracket) :
    exec (slotTeam teams (.int a)) b = (.ok (teamAt teams a), b) := by
  have hle : Relation.holds .le (compare (0 : Int) a) = true := by
    simp [Relation.holds, compare_gt_iff_gt]
  have hlt : Relation.holds .lt (compare (a : Int) teams.length) = true := by
    simp [Relation.holds, compare_lt_iff_lt, ha]
  simp only [slotTeam, Value.relate_int, hle, hlt, operand]
  rfl

/-- A loop that keeps an invariant of the items still to come, and never refuses, ends in the
state the invariant allows once no item is left. -/
theorem exec_forIn_eq_of_step {α β : Type} (P : List α → β → Bracket → Prop)
    {f : α → β → Step (ForInStep β)}
    (hf : ∀ x xs y b, P (x :: xs) y b → ∃ y' b', exec (f x y) b = (.ok (.yield y'), b') ∧ P xs y' b')
    {l : List α} {y : β} {b : Bracket} (h : P l y b) (y₀ : β) (c : Bracket)
    (hend : ∀ y' b', P [] y' b' → y' = y₀ ∧ b' = c) : exec (forIn l y f) b = (.ok y₀, c) := by
  obtain ⟨y', b', hrun, hP⟩ := exec_forIn_of_step P f hf l y b h
  obtain ⟨rfl, rfl⟩ := hend y' b' hP
  exact hrun

/-- **Placing teams into fixtures.** In a competition without knockout rounds whose fixtures
have integer slots within the teams, placing the teams puts the team of each slot on its
side. -/
theorem exec_placeTeams_of_slots {teams : List Value} {b : Bracket} (hr : b.rounds = [])
    (hslots : ∀ m ∈ b.fixtures, m.SlotsWithin teams.length) :
    exec (placeTeams teams) b =
      (.ok (), { b with fixtures := b.fixtures.map (Match.seatSlots teams) }) := by
  -- the fixtures before place `j` are seated, the others as they were
  let seatedTo (j : Nat) : List Match :=
    b.fixtures.mapIdx fun i m => if i < j then m.seatSlots teams else m
  have hseated : ∀ j i, (seatedTo j)[i]? =
      (b.fixtures[i]?).map fun m => if i < j then m.seatSlots teams else m := fun j i =>
    List.getElem?_mapIdx
  unfold placeTeams
  rw [exec_bind_of_ok (exec_get b)]
  simp only [hr, List.isEmpty_nil, Bool.not_true, Bool.false_eq_true, false_and, if_false]
  rw [exec_bind_of_ok (exec_get b)]
  refine (exec_bind_of_ok (exec_forIn_eq_of_step
    (fun l (_ : PUnit) c => ∃ j, l = List.range' j (b.fixtures.length - j) ∧
      c = { b with fixtures := seatedTo j }) ?_ ?_ PUnit.unit
        { b with fixtures := b.fixtures.map (Match.seatSlots teams) } ?_)).trans ?_
  · -- one round of the loop seats the fixture at place `j`, still as generated
    intro x xs y c hP
    obtain ⟨j, hl, rfl⟩ := hP
    obtain ⟨k, hk⟩ : ∃ k, b.fixtures.length - j = k + 1 := by
      cases h : b.fixtures.length - j with
      | zero => rw [h] at hl; cases hl
      | succ k => exact ⟨k, rfl⟩
    rw [hk, List.range'_succ, List.cons.injEq] at hl
    obtain ⟨rfl, rfl⟩ := hl
    have hx : x < b.fixtures.length := by omega
    obtain ⟨a, a', ha, ha', h1, h2⟩ := hslots _ (List.getElem_mem hx)
    have hm : (({ b with fixtures := seatedTo x } : Bracket).get? (.fixture x)).getD default =
        b.fixtures[x] := by
      simp [Bracket.get?, hseated, List.getElem?_eq_getElem hx]
    refine ⟨PUnit.unit, { b with fixtures := seatedTo (x + 1) }, ?_, x + 1,
      by rw [show b.fixtures.length - (x + 1) = k by omega], rfl⟩
    rw [exec_bind_of_ok (exec_matchOf _ _), hm, h1, h2]
    simp only [Value.isNull, Bool.not_false, if_true]
    rw [exec_bind_of_ok (exec_slotTeam_of_lt ha _), exec_bind_of_ok (exec_updateRef _ _ _),
      exec_bind_of_ok (exec_slotTeam_of_lt ha' _), exec_bind_of_ok (exec_updateRef _ _ _),
      exec_pure]
    simp only [Bracket.modify, Prod.mk.injEq, Bracket.mk.injEq, and_true, true_and]
    refine List.ext_getElem? fun i => ?_
    simp only [List.getElem?_modify, hseated]
    by_cases hi : i = x
    · subst i
      simp [List.getElem?_eq_getElem hx, Match.seatSlots, slotValue, h1, h2]
    · simp only [if_neg (Ne.symm hi)]
      cases b.fixtures[i]? <;> simp only [Option.map_none, Option.map_some]
      congr 1
      split_ifs <;> first | rfl | omega
  · refine ⟨0, by rw [List.range_eq_range', Nat.sub_zero], ?_⟩
    have h0 : seatedTo 0 = b.fixtures := by
      refine List.ext_getElem? fun i => ?_
      rw [hseated]
      cases b.fixtures[i]? <;> simp
    rw [h0]
  · -- the loop ends past the last place, with every fixture seated
    rintro - c ⟨j, hj, rfl⟩
    have hend : b.fixtures.length ≤ j := by
      cases h : b.fixtures.length - j with
      | zero => omega
      | succ k => rw [h, List.range'_succ] at hj; cases hj
    refine ⟨rfl, ?_⟩
    congr
    refine List.ext_getElem? fun i => ?_
    rw [hseated, List.getElem?_map]
    cases h : b.fixtures[i]? with
    | none => rfl
    | some m =>
      have := (List.getElem?_eq_some_iff.1 h).1
      simp only [Option.map_some, if_pos (show i < j by omega)]
  · rw [exec_pure, hr]

end Step

/-! ### The games of a schedule -/

namespace Shape

/-- The pairs of a schedule in order, each with the number of its round, the first round
numbered `r`. -/
def pairings : Nat → List (List (Nat × Nat)) → List (Nat × Nat × Nat)
  | _, [] => []
  | r, pairs :: s => pairs.map (r, ·) ++ pairings (r + 1) s

@[simp] theorem pairings_nil (r : Nat) : pairings r [] = [] := rfl

@[simp] theorem pairings_cons (r : Nat) (pairs : List (Nat × Nat)) (s : List (List (Nat × Nat))) :
    pairings r (pairs :: s) = pairs.map (r, ·) ++ pairings (r + 1) s := rfl

variable {s : List (List (Nat × Nat))}

theorem map_snd_pairings (r : Nat) (s : List (List (Nat × Nat))) :
    (pairings r s).map Prod.snd = s.flatten := by
  induction s generalizing r with
  | nil => rfl
  | cons pairs s ih => simp [List.map_map, Function.comp_def, ih]

theorem mem_pairings {r : Nat} {e : Nat × Nat × Nat} :
    e ∈ pairings r s ↔ ∃ t, ∃ h : t < s.length, e.1 = r + t ∧ e.2 ∈ s[t] := by
  induction s generalizing r with
  | nil => simp
  | cons pairs s ih =>
    rw [pairings_cons, List.mem_append, ih]
    constructor
    · rintro (h | ⟨t, ht, h1, h2⟩)
      · obtain ⟨p, hp, rfl⟩ := List.mem_map.1 h
        exact ⟨0, by simp, rfl, hp⟩
      · exact ⟨t + 1, by simp [ht], by omega, h2⟩
    · rintro ⟨t, ht, h1, h2⟩
      cases t with
      | zero =>
        refine .inl (List.mem_map.2 ⟨e.2, h2, ?_⟩)
        rw [Nat.add_zero] at h1
        rw [← h1]
      | succ t => exact .inr ⟨t, by simpa using ht, by omega, h2⟩

theorem le_of_mem_pairings {r : Nat} {e : Nat × Nat × Nat} (he : e ∈ pairings r s) : r ≤ e.1 := by
  obtain ⟨t, -, h, -⟩ := mem_pairings.1 he
  omega

/-- The pairs a schedule lists under one round number are none, or one round of the schedule. -/
theorem filter_pairings_round (r : Nat) (s : List (List (Nat × Nat))) (k : Int) :
    ((pairings r s).filter (fun e => (e.1 : Int) = k)).map Prod.snd = [] ∨
      ((pairings r s).filter (fun e => (e.1 : Int) = k)).map Prod.snd ∈ s := by
  induction s generalizing r with
  | nil => simp
  | cons pairs s ih =>
    rw [pairings_cons, List.filter_append, List.map_append]
    by_cases hk : (r : Int) = k
    · -- the round numbered `k` is the first; the later rounds hold none of its pairs
      have hlater : (pairings (r + 1) s).filter (fun e => (e.1 : Int) = k) = [] :=
        List.filter_eq_nil_iff.2 fun e he h => by
          have := le_of_mem_pairings he
          simp only [decide_eq_true_eq] at h
          omega
      have hfirst : (pairs.map (r, ·)).filter (fun e => (e.1 : Int) = k) = pairs.map (r, ·) :=
        List.filter_eq_self.2 fun e he => by
          obtain ⟨p, -, rfl⟩ := List.mem_map.1 he
          simpa using hk
      rw [hlater, hfirst, List.map_map]
      exact .inr (by simp [Function.comp_def])
    · have hfirst : (pairs.map (r, ·)).filter (fun e => (e.1 : Int) = k) = [] :=
        List.filter_eq_nil_iff.2 fun e he h => by
          obtain ⟨p, -, rfl⟩ := List.mem_map.1 he
          exact hk (by simpa using h)
      rw [hfirst, List.map_nil, List.nil_append]
      exact (ih (r + 1)).imp_right (List.mem_cons_of_mem _)

/-- The schedule with the sides of every pair swapped, its rounds shifted by `d`. -/
theorem map_pairings_swap (r d : Nat) (s : List (List (Nat × Nat))) :
    (pairings r s).map (fun e => (e.1 + d, e.2.swap)) =
      pairings (r + d) (s.map (·.map Prod.swap)) := by
  induction s generalizing r with
  | nil => rfl
  | cons pairs s ih =>
    rw [pairings_cons, List.map_append, ih, List.map_cons, pairings_cons, List.map_map,
      List.map_map, Nat.add_right_comm]
    rfl

/-- A schedule among `n` slots: pairs of slots below `n`, no slot twice in a round. -/
def Sound (n : Nat) (s : List (List (Nat × Nat))) : Prop :=
  ∀ round ∈ s, (∀ p ∈ round, Inside n p) ∧ (slotsOf round).Nodup

theorem slotsOf_map_swap_perm (round : List (Nat × Nat)) :
    (slotsOf (round.map Prod.swap)).Perm (slotsOf round) := by
  induction round with
  | nil => rfl
  | cons p round ih =>
    rw [List.map_cons, slotsOf_cons, slotsOf_cons]
    exact (List.Perm.swap _ _ _).trans ((ih.cons _).cons _)

theorem Sound.swap {n : Nat} (h : Sound n s) : Sound n (s.map (·.map Prod.swap)) := by
  intro round hround
  obtain ⟨round, hr, rfl⟩ := List.mem_map.1 hround
  obtain ⟨hin, hnd⟩ := h round hr
  refine ⟨fun p hp => ?_, (slotsOf_map_swap_perm round).nodup_iff.2 hnd⟩
  obtain ⟨q, hq, rfl⟩ := List.mem_map.1 hp
  exact ⟨(hin q hq).2, (hin q hq).1⟩

theorem sound_schedule {n : Nat} (hn : 2 ≤ n) : Sound n (schedule n) := fun _ hround =>
  ⟨(mem_schedule hn hround).2.1, (mem_schedule hn hround).2.2⟩

/-- The number of rounds of a round robin among `n` teams: `n - 1`, or `n` for an odd count. -/
def roundCount (n : Nat) : Nat := if n % 2 = 0 then n - 1 else n

theorem length_schedule_eq_roundCount (n : Nat) : (schedule n).length = roundCount n := by
  rw [length_schedule, evenCount, roundCount]
  split <;> omega

end Shape

open Shape

/-! ### Fixtures that play a schedule -/

/-- The teams of a list of fixtures, the two sides of each in turn. -/
def teamsOf (ms : List Match) : List Value :=
  ms.flatMap fun m => [m.team1, m.team2]

open Classical in
/-- Every two distinct teams of `ids` meet in exactly one of the fixtures, either of them at
home. -/
def MeetOnce (ids : List Value) (ms : List Match) : Prop :=
  ∀ x ∈ ids, ∀ y ∈ ids, x ≠ y → ms.countP (fun m => IsPair x y (m.team1, m.team2)) = 1

open Classical in
/-- Every two distinct teams of `ids` meet in exactly one fixture with the first at home. -/
def MeetOnceEachWay (ids : List Value) (ms : List Match) : Prop :=
  ∀ x ∈ ids, ∀ y ∈ ids, x ≠ y → ms.countP (fun m => (m.team1, m.team2) = (x, y)) = 1

/-- No team plays twice in a round: the sides of the fixtures of each round are distinct. -/
def RoundsApart (ms : List Match) : Prop :=
  ∀ r : Int, (teamsOf (ms.filter fun m => Generate.roundOf m = r)).Nodup

/-- The fixtures are played in the rounds `lo, …, hi`, each of which holds one of them. -/
def PlayedInRounds (lo hi : Nat) (ms : List Match) : Prop :=
  (∀ m ∈ ms, ∃ r : Nat, lo ≤ r ∧ r ≤ hi ∧ m.round = .int r) ∧
    ∀ r : Nat, lo ≤ r → r ≤ hi → ∃ m ∈ ms, m.round = .int r

/-- The fixtures `ms` play the schedule `s` with the teams `ids`, its first round numbered `r`:
in the schedule's order, each fixture has the round and the teams of its pair. -/
def Plays (ids : List Value) (r : Nat) (s : List (List (Nat × Nat))) (ms : List Match) : Prop :=
  ms.map (fun m => (m.round, m.team1, m.team2)) =
    (pairings r s).map fun e => (.int e.1, Step.teamAt ids e.2.1, Step.teamAt ids e.2.2)

section Teams

variable {ids : List Value}

theorem teamAt_of_lt {a : Nat} (ha : a < ids.length) : Step.teamAt ids a = ids[a] := by
  rw [Step.teamAt, if_neg (by omega), Int.toNat_natCast, List.getElem?_eq_getElem ha]
  rfl

variable (hids : ids.Nodup)
include hids

theorem teamAt_inj {a b : Nat} (ha : a < ids.length) (hb : b < ids.length) :
    Step.teamAt ids a = Step.teamAt ids b ↔ a = b := by
  rw [teamAt_of_lt ha, teamAt_of_lt hb, hids.getElem_inj_iff]

/-- Teams at two places inside the list are the teams at two given places exactly when the
places are those. -/
theorem teams_eq_iff {p : Nat × Nat} (hp : Inside ids.length p) {i j : Nat}
    (hi : i < ids.length) (hj : j < ids.length) :
    (Step.teamAt ids p.1, Step.teamAt ids p.2) = (Step.teamAt ids i, Step.teamAt ids j) ↔
      p = (i, j) := by
  rw [Prod.mk.injEq, teamAt_inj hids hp.1 hi, teamAt_inj hids hp.2 hj, Prod.ext_iff]

theorem isPair_teams_iff {p : Nat × Nat} (hp : Inside ids.length p) {i j : Nat}
    (hi : i < ids.length) (hj : j < ids.length) :
    IsPair (Step.teamAt ids i) (Step.teamAt ids j) (Step.teamAt ids p.1, Step.teamAt ids p.2) ↔
      IsPair i j p := by
  rw [IsPair, IsPair, teams_eq_iff hids hp hi hj, teams_eq_iff hids hp hj hi]

end Teams

/-- The pairs of two distinct slots in either order are those in the one order and those in
the other. -/
theorem countP_isPair {i j : Nat} (hij : i ≠ j) (l : List (Nat × Nat)) :
    l.countP (IsPair i j ·) = l.countP (· = (i, j)) + l.countP (· = (j, i)) := by
  induction l with
  | nil => rfl
  | cons p l ih =>
    rw [List.countP_cons, List.countP_cons, List.countP_cons, ih]
    by_cases h1 : p = (i, j) <;> by_cases h2 : p = (j, i) <;> simp_all [IsPair] <;> omega

namespace Plays

variable {ids : List Value} {r : Nat} {s : List (List (Nat × Nat))} {ms : List Match}

/-- Fixtures that play a schedule count their sides as the schedule counts its pairs. -/
theorem countP_sides (h : Plays ids r s ms) (P : Value × Value → Bool) :
    ms.countP (fun m => P (m.team1, m.team2)) =
      s.flatten.countP (fun p => P (Step.teamAt ids p.1, Step.teamAt ids p.2)) := by
  have hsides : ms.map (fun m => (m.team1, m.team2)) =
      s.flatten.map fun p => (Step.teamAt ids p.1, Step.teamAt ids p.2) := by
    rw [← map_snd_pairings r s, List.map_map]
    simpa only [List.map_map, Function.comp_def] using congrArg (List.map Prod.snd) h
  have := congrArg (List.countP P) hsides
  rwa [List.countP_map, List.countP_map] at this

/-- The sides of the fixtures of one round are the teams of one round of the schedule, or none. -/
theorem teamsOf_filter_round {E : List (Nat × Nat × Nat)}
    (h : ms.map (fun m => (m.round, m.team1, m.team2)) =
      E.map fun e => (.int e.1, Step.teamAt ids e.2.1, Step.teamAt ids e.2.2)) (k : Int) :
    teamsOf (ms.filter fun m => Generate.roundOf m = k) =
      (slotsOf ((E.filter fun e => (e.1 : Int) = k).map Prod.snd)).map
        fun a : Nat => Step.teamAt ids a := by
  induction ms generalizing E with
  | nil =>
    cases E with
    | nil => rfl
    | cons e E => cases h
  | cons m ms ih =>
    cases E with
    | nil => cases h
    | cons e E =>
      rw [List.map_cons, List.map_cons, List.cons.injEq] at h
      obtain ⟨hm, hrest⟩ := h
      rw [Prod.mk.injEq, Prod.mk.injEq] at hm
      obtain ⟨hround, h1, h2⟩ := hm
      have hr : Generate.roundOf m = e.1 := by rw [Generate.roundOf, hround]
      rw [List.filter_cons, List.filter_cons, hr]
      by_cases hk : (e.1 : Int) = k
      · simp only [hk, decide_true, if_true, List.map_cons, slotsOf_cons, teamsOf,
          List.flatMap_cons, h1, h2, List.cons_append, List.nil_append]
        rw [← ih hrest]
        rfl
      · simp only [hk, decide_false, Bool.false_eq_true, if_false]
        exact ih hrest

/-- Fixtures that play a schedule among the teams never seat a team twice in a round. -/
theorem roundsApart (h : Plays ids r s ms) (hs : Sound ids.length s) (hids : ids.Nodup) :
    RoundsApart ms := by
  intro k
  rw [teamsOf_filter_round h k]
  rcases filter_pairings_round r s k with hnil | hround
  · rw [hnil]
    exact List.nodup_nil
  · obtain ⟨hin, hnd⟩ := hs _ hround
    refine hnd.map_on fun a ha b hb hab => (teamAt_inj hids ?_ ?_).1 hab
    · obtain ⟨p, hp, hpa⟩ := mem_slotsOf.1 ha
      rcases hpa with rfl | rfl
      · exact (hin p hp).1
      · exact (hin p hp).2
    · obtain ⟨p, hp, hpb⟩ := mem_slotsOf.1 hb
      rcases hpb with rfl | rfl
      · exact (hin p hp).1
      · exact (hin p hp).2

/-- Fixtures that play a schedule of nonempty rounds are played in its rounds, each round
holding some. -/
theorem playedInRounds (h : Plays ids r s ms) (hr : 0 < r) (hne : ∀ round ∈ s, round ≠ []) :
    PlayedInRounds r (r + s.length - 1) ms := by
  constructor
  · intro m hm
    have hview : (m.round, m.team1, m.team2) ∈ ms.map fun m => (m.round, m.team1, m.team2) :=
      List.mem_map_of_mem hm
    rw [h] at hview
    obtain ⟨e, he, heq⟩ := List.mem_map.1 hview
    obtain ⟨t, ht, he1, -⟩ := mem_pairings.1 he
    rw [Prod.mk.injEq] at heq
    exact ⟨e.1, by omega, by omega, heq.1.symm⟩
  · intro k hk1 hk2
    obtain ⟨t, rfl⟩ : ∃ t, k = r + t := ⟨k - r, by omega⟩
    have ht : t < s.length := by omega
    obtain ⟨p, hp⟩ := List.exists_mem_of_ne_nil _ (hne _ (List.getElem_mem ht))
    have he : (r + t, p) ∈ pairings r s := mem_pairings.2 ⟨t, ht, rfl, hp⟩
    have hview : (Value.int ↑(r + t), Step.teamAt ids p.1, Step.teamAt ids p.2) ∈
        (pairings r s).map fun e => (.int e.1, Step.teamAt ids e.2.1, Step.teamAt ids e.2.2) :=
      List.mem_map_of_mem he
    rw [← h] at hview
    obtain ⟨m, hm, heq⟩ := List.mem_map.1 hview
    rw [Prod.mk.injEq] at heq
    exact ⟨m, hm, heq.1⟩

open Classical in
/-- Fixtures that play a schedule in which every two slots meet once have every two teams meet
once. -/
theorem meetOnce (h : Plays ids r s ms) (hs : Sound ids.length s) (hids : ids.Nodup)
    (hpair : ∀ i < ids.length, ∀ j < ids.length, i ≠ j → s.flatten.countP (IsPair i j ·) = 1) :
    MeetOnce ids ms := by
  intro x hx y hy hxy
  obtain ⟨i, hi, rfl⟩ := List.getElem_of_mem hx
  obtain ⟨j, hj, rfl⟩ := List.getElem_of_mem hy
  have hij : i ≠ j := fun hij => hxy (by subst hij; rfl)
  rw [← teamAt_of_lt hi, ← teamAt_of_lt hj]
  refine (h.countP_sides fun q => decide (IsPair _ _ q)).trans ?_
  rw [← hpair i hi j hj hij]
  refine List.countP_congr fun p hp => ?_
  obtain ⟨round, hround, hp⟩ := List.mem_flatten.1 hp
  rw [decide_eq_true_iff, decide_eq_true_iff]
  exact isPair_teams_iff hids ((hs round hround).1 p hp) hi hj

open Classical in
/-- Two legs, the second playing the schedule with the sides swapped, have every two teams meet
once each way round. -/
theorem meetOnceEachWay_append {r' : Nat} {ms' : List Match} (h : Plays ids r s ms)
    (h' : Plays ids r' (s.map (·.map Prod.swap)) ms') (hs : Sound ids.length s)
    (hids : ids.Nodup)
    (hpair : ∀ i < ids.length, ∀ j < ids.length, i ≠ j → s.flatten.countP (IsPair i j ·) = 1) :
    MeetOnceEachWay ids (ms ++ ms') := by
  intro x hx y hy hxy
  obtain ⟨i, hi, rfl⟩ := List.getElem_of_mem hx
  obtain ⟨j, hj, rfl⟩ := List.getElem_of_mem hy
  have hij : i ≠ j := fun hij => hxy (by subst hij; rfl)
  have hin : ∀ p ∈ s.flatten, Inside ids.length p := fun p hp => by
    obtain ⟨round, hround, hp⟩ := List.mem_flatten.1 hp
    exact (hs round hround).1 p hp
  rw [← teamAt_of_lt hi, ← teamAt_of_lt hj, List.countP_append]
  rw [(h.countP_sides fun q => decide (q = _)), (h'.countP_sides fun q => decide (q = _)),
    ← List.map_flatten, List.countP_map, ← hpair i hi j hj hij, countP_isPair hij]
  -- the first leg holds the pair in its order, the second leg in the other
  congr 1
  · refine List.countP_congr fun p hp => ?_
    rw [decide_eq_true_iff, decide_eq_true_iff]
    exact teams_eq_iff hids (hin p hp) hi hj
  · refine List.countP_congr fun p hp => ?_
    rw [Function.comp_apply, decide_eq_true_iff, decide_eq_true_iff, Prod.fst_swap,
      Prod.snd_swap, Prod.mk.injEq, and_comm, ← Prod.mk.injEq, teams_eq_iff hids (hin p hp) hj hi]

end Plays

/-! ### The generated fixtures -/

/-- A list numbered from `k` mapped by a function of its items alone. -/
theorem map_zipIdx_of_fst {α β : Type} (g : α → β) {f : α × Nat → β} {l : List α} {k : Nat}
    (h : ∀ a i, f (a, i) = g a) : (l.zipIdx k).map f = l.map g :=
  calc (l.zipIdx k).map f = (l.zipIdx k).map (g ∘ Prod.fst) :=
        List.map_congr_left fun x _ => h x.1 x.2
    _ = l.map g := by rw [← List.map_map, List.zipIdx_map_fst]

/-- A list numbered from `k` mapped by a function of the numbers alone. -/
theorem map_zipIdx_of_snd {α β : Type} (g : Nat → β) {f : α × Nat → β} {l : List α} {k : Nat}
    (h : ∀ a i, f (a, i) = g i) : (l.zipIdx k).map f = (List.range' k l.length).map g :=
  calc (l.zipIdx k).map f = (l.zipIdx k).map (g ∘ Prod.snd) :=
        List.map_congr_left fun x _ => h x.1 x.2
    _ = (List.range' k l.length).map g := by rw [← List.map_map, List.zipIdx_map_snd]

/-- The largest of numbers none above `c`, from `c`, is `c`. -/
theorem foldl_max_of_le {l : List Int} {c : Int} (h : ∀ x ∈ l, x ≤ c) : l.foldl max c = c := by
  induction l with
  | nil => rfl
  | cons x l ih =>
    rw [List.foldl_cons, max_eq_left (h x List.mem_cons_self)]
    exact ih fun y hy => h y (List.mem_cons_of_mem _ hy)

/-- The largest of numbers none above `m`, one of them `m`, from `c ≤ m`, is `m`. -/
theorem foldl_max_eq {l : List Int} {c m : Int} (hc : c ≤ m) (hle : ∀ x ∈ l, x ≤ m)
    (hm : m ∈ l) : l.foldl max c = m := by
  induction l generalizing c with
  | nil => cases hm
  | cons x l ih =>
    rw [List.foldl_cons]
    have hrest : ∀ y ∈ l, y ≤ m := fun y hy => hle y (List.mem_cons_of_mem _ hy)
    rcases List.mem_cons.1 hm with rfl | hm
    · rw [max_eq_right hc]
      exact foldl_max_of_le hrest
    · exact ih (max_le hc (hle x List.mem_cons_self)) hrest hm

theorem map_pairings_eq_flatMap {β : Type} (h : Int × Int × Int → β) (k : Nat)
    (s : List (List (Nat × Nat))) :
    (pairings (k + 1) s).map (fun e => h (e.1, e.2.1, e.2.2)) =
      (s.zipIdx k).flatMap fun x => x.1.map fun p => h ((x.2 : Int) + 1, p.1, p.2) := by
  induction s generalizing k with
  | nil => rfl
  | cons pairs s ih =>
    rw [pairings_cons, List.map_append, ih, List.zipIdx_cons, List.flatMap_cons, List.map_map]
    simp only [Function.comp_def, Int.natCast_add, Int.natCast_one]

/-- The fixture a round robin lists at place `k`, in round `r` as the `i`-th of the round, between
the slots `a` and `b`. -/
def scheduleRow (pfx : String) (k : Nat) (r i a b : Int) : Match :=
  { id := .str s!"{pfx}_{k + 1}", round := .int r, number := .int i, slot1 := .int a,
    slot2 := .int b }

/-- The fixtures a round robin lists for the schedule `s`, tagged `pfx`: the pairs in order, each
with its round, its number in the round and its two slots. -/
def scheduleFixtures (pfx : String) (s : List (List (Nat × Nat))) : List Match :=
  (s.zipIdx.flatMap fun (pairs, r) => pairs.zipIdx.map fun ((a, b), i) =>
      ((r : Int) + 1, (i : Int) + 1, (a : Int), (b : Int))).zipIdx.map
    fun ((r, i, a, b), k) => scheduleRow pfx k r i a b

theorem fixtures_eq {n : Nat} (hn : 2 ≤ n) (pfx : String) :
    Generate.fixtures n pfx = .ok (scheduleFixtures pfx (schedule n)) := by
  rw [Generate.fixtures, roundRobin_eq hn]
  rfl

section Generated

variable {pfx : String} {s : List (List (Nat × Nat))}

/-- What a fixture of a schedule shows of its round and slots, in the schedule's order. -/
theorem map_scheduleFixtures {β : Type} {g : Match → β} (h : Int × Int × Int → β)
    (hg : ∀ k r i a b, g (scheduleRow pfx k r i a b) = h (r, a, b)) :
    (scheduleFixtures pfx s).map g = (pairings 1 s).map fun e => h (e.1, e.2.1, e.2.2) := by
  rw [scheduleFixtures, List.map_map, map_zipIdx_of_fst (fun x => h (x.1, x.2.2.1, x.2.2.2))
    fun x k => hg k _ _ _ _, List.map_flatMap, map_pairings_eq_flatMap h 0]
  refine List.flatMap_congr fun x _ => ?_
  rw [List.map_map]
  exact map_zipIdx_of_fst _ fun p i => rfl

theorem ids_scheduleFixtures :
    (scheduleFixtures pfx s).map (·.id) =
      (List.range' 0 (scheduleFixtures pfx s).length).map fun k => .str (tag pfx (k + 1)) := by
  rw [scheduleFixtures, List.length_map, List.length_zipIdx, List.map_map]
  exact map_zipIdx_of_snd _ fun x k => rfl

/-- Every fixture of a schedule among `n` slots has both its slots below `n`. -/
theorem slotsWithin_scheduleFixtures {n : Nat} (hs : Sound n s) :
    ∀ m ∈ scheduleFixtures pfx s, m.SlotsWithin n := by
  intro m hm
  have hview : (m.slot1, m.slot2) ∈ (scheduleFixtures pfx s).map fun m => (m.slot1, m.slot2) :=
    List.mem_map_of_mem hm
  rw [map_scheduleFixtures (fun e => (Value.int e.2.1, Value.int e.2.2)) fun _ _ _ _ _ => rfl]
    at hview
  obtain ⟨e, he, heq⟩ := List.mem_map.1 hview
  obtain ⟨t, ht, -, hp⟩ := mem_pairings.1 he
  have hin := (hs _ (List.getElem_mem ht)).1 _ hp
  rw [Prod.mk.injEq] at heq
  exact ⟨e.2.1, e.2.2, hin.1, hin.2, heq.1.symm, heq.2.symm⟩

/-- Placing teams into the fixtures of a schedule plays the schedule from round one. -/
theorem plays_scheduleFixtures (ids : List Value) :
    Plays ids 1 s ((scheduleFixtures pfx s).map (Match.seatSlots ids)) := by
  rw [Plays, List.map_map]
  exact map_scheduleFixtures (fun e => (Value.int e.1, Step.teamAt ids e.2.1, Step.teamAt ids e.2.2))
    fun _ _ _ _ _ => rfl

/-- The last round of a schedule of nonempty rounds is the latest round of its fixtures. -/
theorem foldl_max_roundOf (hne : ∀ round ∈ s, round ≠ []) :
    ((scheduleFixtures pfx s).map Generate.roundOf).foldl max 0 = s.length := by
  rw [map_scheduleFixtures (fun e => e.1) fun _ _ _ _ _ => rfl]
  cases hs : s.length with
  | zero =>
    rw [List.length_eq_zero_iff.1 hs]
    rfl
  | succ t =>
    have ht : t < s.length := by omega
    obtain ⟨p, hp⟩ := List.exists_mem_of_ne_nil _ (hne _ (List.getElem_mem ht))
    refine foldl_max_eq (by omega) (fun x hx => ?_) ?_
    · obtain ⟨e, he, rfl⟩ := List.mem_map.1 hx
      obtain ⟨t', ht', he1, -⟩ := mem_pairings.1 he
      omega
    · refine List.mem_map.2 ⟨(1 + t, p), mem_pairings.2 ⟨t, ht, rfl, hp⟩, ?_⟩
      push_cast
      omega

end Generated

/-! ### The return leg -/

/-- The fixture of a league's return leg for the fixture `m` at place `k` of the first leg, its
round shifted by `off`. -/
def returnRow (off : Int) (m : Match) (k : Nat) : Match :=
  { id := .str s!"leg2_{k + 1}", round := .int (Generate.roundOf m + off), number := m.number,
    team1 := m.team2, team2 := m.team1, slot1 := m.slot2, slot2 := m.slot1 }

theorem map_returnLeg {β : Type} (F : List Match) (h : Match → β) {g : Match → β}
    (hg : ∀ m k, g (returnRow ((F.map Generate.roundOf).foldl max 0) m k) = h m) :
    (Generate.returnLeg F).map g = F.map h := by
  rw [Generate.returnLeg, List.map_map]
  exact map_zipIdx_of_fst h fun m k => hg m k

theorem ids_returnLeg (F : List Match) :
    (Generate.returnLeg F).map (·.id) =
      (List.range' 0 F.length).map fun k => .str (tag "leg2" (k + 1)) := by
  rw [Generate.returnLeg, List.map_map]
  exact map_zipIdx_of_snd _ fun m k => rfl

section ReturnLeg

variable {pfx : String} {s : List (List (Nat × Nat))}

/-- The return leg of a schedule's fixtures has every slot the first leg has, on the other side. -/
theorem slotsWithin_returnLeg {n : Nat} (hs : Sound n s) :
    ∀ m ∈ Generate.returnLeg (scheduleFixtures pfx s), m.SlotsWithin n := by
  intro m hm
  have hview : (m.slot1, m.slot2) ∈
      (Generate.returnLeg (scheduleFixtures pfx s)).map fun m => (m.slot1, m.slot2) :=
    List.mem_map_of_mem hm
  rw [map_returnLeg _ (fun m => (m.slot2, m.slot1)) fun _ _ => rfl] at hview
  obtain ⟨m', hm', heq⟩ := List.mem_map.1 hview
  obtain ⟨a, c, ha, hc, h1, h2⟩ := slotsWithin_scheduleFixtures hs m' hm'
  rw [Prod.mk.injEq] at heq
  exact ⟨c, a, hc, ha, heq.1 ▸ h2, heq.2 ▸ h1⟩

/-- Placing teams into the return leg of a schedule's fixtures plays the schedule with the sides
swapped, from the round after its last. -/
theorem plays_returnLeg (ids : List Value) (hne : ∀ round ∈ s, round ≠ []) :
    Plays ids (1 + s.length) (s.map (·.map Prod.swap))
      ((Generate.returnLeg (scheduleFixtures pfx s)).map (Match.seatSlots ids)) := by
  rw [Plays, List.map_map, map_returnLeg _ (fun m => (Value.int (Generate.roundOf m +
      ((scheduleFixtures pfx s).map Generate.roundOf).foldl max 0),
      slotValue ids m.slot2, slotValue ids m.slot1)) fun _ _ => rfl, foldl_max_roundOf hne,
    map_scheduleFixtures (fun e => (Value.int (e.1 + s.length), Step.teamAt ids e.2.2,
      Step.teamAt ids e.2.1)) fun _ _ _ _ _ => rfl, ← map_pairings_swap 1 s.length s, List.map_map]
  refine List.map_congr_left fun e _ => ?_
  simp only [Function.comp_apply, Prod.fst_swap, Prod.snd_swap, Int.natCast_add]

end ReturnLeg

/-! ### Ids -/

/-- Tags with prefixes of one length differ when the prefixes do. -/
theorem tag_ne_tag_of_length {pfx pfx' : String} (hlen : pfx.length = pfx'.length)
    (hne : pfx ≠ pfx') (a b : Nat) : tag pfx a ≠ tag pfx' b := by
  intro h
  have h' := congrArg String.toList h
  simp only [tag, String.toList_append] at h'
  have hlen' : (pfx.toList ++ "_".toList).length = (pfx'.toList ++ "_".toList).length := by
    simp [String.length_toList, hlen]
  exact hne (String.toList_inj.1 (List.append_cancel_right (List.append_inj h' hlen').1))

/-- Ids tagged with the numbers from `a + 1` on are distinct. -/
theorem nodup_tags (pfx : String) (a k : Nat) :
    ((List.range' a k).map fun i => Value.str (tag pfx (i + 1))).Nodup := by
  refine (List.nodup_range' ..).map fun i j h => ?_
  have := tag_inj.1 (Value.str.inj h)
  omega

theorem mem_tags {pfx : String} {a k : Nat} {v : Value}
    (hv : v ∈ (List.range' a k).map fun i => Value.str (tag pfx (i + 1))) :
    ∃ i, v = .str (tag pfx i) := by
  obtain ⟨i, -, rfl⟩ := List.mem_map.1 hv
  exact ⟨i + 1, rfl⟩

/-! ### Rounds -/

theorem teamsOf_append (ms ms' : List Match) : teamsOf (ms ++ ms') = teamsOf ms ++ teamsOf ms' :=
  List.flatMap_append

theorem PlayedInRounds.roundOf {lo hi : Nat} {ms : List Match} (h : PlayedInRounds lo hi ms)
    {m : Match} (hm : m ∈ ms) : ∃ r : Nat, lo ≤ r ∧ r ≤ hi ∧ Generate.roundOf m = r := by
  obtain ⟨r, hlo, hhi, hr⟩ := h.1 m hm
  exact ⟨r, hlo, hhi, by rw [Generate.roundOf, hr]⟩

/-- Fixtures of rounds apart, in two lists of rounds apart, are in rounds apart. -/
theorem RoundsApart.append {ms ms' : List Match} (h : RoundsApart ms) (h' : RoundsApart ms')
    (hsep : ∀ m ∈ ms, ∀ m' ∈ ms', Generate.roundOf m ≠ Generate.roundOf m') :
    RoundsApart (ms ++ ms') := by
  intro r
  rw [List.filter_append, teamsOf_append]
  by_cases hnone : ms.filter (fun m => Generate.roundOf m = r) = []
  · rw [hnone, show teamsOf [] = [] from rfl, List.nil_append]
    exact h' r
  · -- a fixture of the first list is in round `r`, so none of the second is
    obtain ⟨m, hm⟩ := List.exists_mem_of_ne_nil _ hnone
    obtain ⟨hm, hmr⟩ := List.mem_filter.1 hm
    have hnone' : ms'.filter (fun m => Generate.roundOf m = r) = [] :=
      List.filter_eq_nil_iff.2 fun m' hm' hm'r =>
        hsep m hm m' hm' ((of_decide_eq_true hmr).trans (of_decide_eq_true hm'r).symm)
    rw [hnone', show teamsOf [] = [] from rfl, List.append_nil]
    exact h r

/-! ### Building and placing -/

theorem build_league {n : Nat} (hn : 2 ≤ n) (l : Int) :
    Generate.build .league { teams := n, legs := .int l } =
      .ok { format := .league, fixtures := if 1 < l then
        scheduleFixtures "leg1" (schedule n) ++ Generate.returnLeg (scheduleFixtures "leg1" (schedule n))
        else scheduleFixtures "leg1" (schedule n) } := by
  have hgt : Relation.holds .gt (compare l 1) = decide (1 < l) := by
    by_cases hl : 1 < l
    · simp [Relation.holds, compare_gt_iff_gt, hl]
    · simp [Relation.holds, compare_gt_iff_gt, hl]
  simp only [Generate.build, fixtures_eq hn, Value.relate_int, hgt]
  by_cases hl : 1 < l <;> simp [hl, Generate.operand, bind, Except.bind, pure, Except.pure,
    Except.mapError, Value.ofOptStr]

theorem build_roundRobin {n : Nat} (hn : 2 ≤ n) :
    Generate.build .roundRobin { teams := n } =
      .ok { format := .roundRobin, fixtures := scheduleFixtures "rr" (schedule n) } := by
  rw [Generate.build, fixtures_eq hn]
  rfl

/-- Placing teams into a competition of fixtures alone with slots within the teams. -/
theorem exec_placeTeams_fixtures {ids : List Value} {f : Format} {F : List Match}
    (hF : ∀ m ∈ F, m.SlotsWithin ids.length) :
    Step.exec (Step.placeTeams ids) { format := f, fixtures := F } =
      (.ok (), { format := f, fixtures := F.map (Match.seatSlots ids) }) :=
  Step.exec_placeTeams_of_slots rfl hF

theorem slotTeam_eq_teamAt (names : List String) (a : Int) :
    Generate.slotTeam names (.int a) = Step.teamAt (names.map .str) a := by
  rw [Generate.slotTeam, Step.teamAt, List.getElem?_map]

section Group

variable {letter : String} {names : List String}

theorem groupFixtures_eq (hn : 2 ≤ names.length) :
    Generate.groupFixtures letter names =
      (scheduleFixtures s!"group_{letter}" (schedule names.length)).map fun m =>
        { m with groupLetter := .str letter, team1 := Generate.slotTeam names m.slot1,
                 team2 := Generate.slotTeam names m.slot2 } := by
  rw [Generate.groupFixtures, if_neg (by omega), fixtures_eq hn]

/-- The fixtures of a drawn group play the schedule of its teams. -/
theorem plays_groupFixtures (hn : 2 ≤ names.length) :
    Plays (names.map .str) 1 (schedule names.length) (Generate.groupFixtures letter names) := by
  rw [Plays, groupFixtures_eq hn, List.map_map]
  refine map_scheduleFixtures (fun e => (Value.int e.1, Step.teamAt (names.map .str) e.2.1,
    Step.teamAt (names.map .str) e.2.2)) fun k r i a b => ?_
  simp only [Function.comp_apply, scheduleRow, slotTeam_eq_teamAt]

theorem groupLetter_groupFixtures (hn : 2 ≤ names.length) :
    ∀ m ∈ Generate.groupFixtures letter names, m.groupLetter = .str letter := by
  intro m hm
  rw [groupFixtures_eq hn] at hm
  obtain ⟨m', -, rfl⟩ := List.mem_map.1 hm
  rfl

theorem ids_groupFixtures (hn : 2 ≤ names.length) :
    (Generate.groupFixtures letter names).map (·.id) =
      (List.range' 0 (Generate.groupFixtures letter names).length).map
        fun k => .str (tag s!"group_{letter}" (k + 1)) := by
  rw [groupFixtures_eq hn, List.map_map, List.length_map, ← ids_scheduleFixtures]
  rfl

end Group

/-! ### Every pair of teams meets -/

theorem schedule_round_ne_nil {n : Nat} (hn : 2 ≤ n) : ∀ round ∈ schedule n, round ≠ [] := by
  intro round hround hnil
  have := (mem_schedule hn hround).1
  rw [hnil, List.length_nil] at this
  omega

theorem countP_pair_schedule_of_ids {n : Nat} (hn : 2 ≤ n) {ids : List Value}
    (hlen : ids.length = n) :
    ∀ i < ids.length, ∀ j < ids.length, i ≠ j → (schedule n).flatten.countP (IsPair i j ·) = 1 :=
  fun _ hi _ hj hij => countP_pair_schedule hn (hlen ▸ hi) (hlen ▸ hj) hij

theorem sound_schedule_of_ids {n : Nat} (hn : 2 ≤ n) {ids : List Value} (hlen : ids.length = n) :
    Sound ids.length (schedule n) := by
  rw [hlen]
  exact sound_schedule hn

section Placed

variable {n : Nat} (hn : 2 ≤ n) {ids : List Value} (hids : ids.Nodup) (hlen : ids.length = n)
include hn hids hlen

/-- A league of two legs or more: every two teams meet once each way round, the first leg in the
rounds of the schedule and the return leg in as many rounds after them; no team plays twice in
a round and no two fixtures share an id. -/
theorem placed_league_two_legs {l : Int} (hl : 2 ≤ l) :
    ∃ b b', Generate.build .league { teams := n, legs := .int l } = .ok b ∧
      Step.exec (Step.placeTeams ids) b = (.ok (), b') ∧ MeetOnceEachWay ids b'.fixtures ∧
      (∃ first second, b'.fixtures = first ++ second ∧ PlayedInRounds 1 (roundCount n) first ∧
        PlayedInRounds (roundCount n + 1) (2 * roundCount n) second) ∧
      RoundsApart b'.fixtures ∧ (b'.fixtures.map (·.id)).Nodup := by
  have hs := sound_schedule_of_ids hn hlen
  have hne := schedule_round_ne_nil hn
  have hR := length_schedule_eq_roundCount n
  set F := scheduleFixtures "leg1" (schedule n)
  have hslots : ∀ m ∈ F ++ Generate.returnLeg F, m.SlotsWithin ids.length := by
    intro m hm
    rcases List.mem_append.1 hm with hm | hm
    · exact slotsWithin_scheduleFixtures hs m hm
    · exact slotsWithin_returnLeg hs m hm
  have h1 : Plays ids 1 (schedule n) (F.map (Match.seatSlots ids)) := plays_scheduleFixtures ids
  have h2 : Plays ids (1 + (schedule n).length) ((schedule n).map (·.map Prod.swap))
      ((Generate.returnLeg F).map (Match.seatSlots ids)) := plays_returnLeg ids hne
  -- the rounds of the two legs
  have hp1 : PlayedInRounds 1 (roundCount n) (F.map (Match.seatSlots ids)) := by
    have := h1.playedInRounds Nat.one_pos hne
    rwa [hR, Nat.add_sub_cancel_left] at this
  have hp2 : PlayedInRounds (roundCount n + 1) (2 * roundCount n)
      ((Generate.returnLeg F).map (Match.seatSlots ids)) := by
    have hne' : ∀ round ∈ (schedule n).map (·.map Prod.swap), round ≠ [] := by
      intro round hround
      obtain ⟨round, hr, rfl⟩ := List.mem_map.1 hround
      exact fun h => hne round hr (List.map_eq_nil_iff.1 h)
    have := h2.playedInRounds (by omega) hne'
    rwa [List.length_map, hR, show 1 + roundCount n + roundCount n - 1 = 2 * roundCount n by omega,
      Nat.add_comm] at this
  refine ⟨_, _, by rw [build_league hn, if_pos (by omega)], exec_placeTeams_fixtures hslots,
    ?_, ⟨_, _, List.map_append, hp1, hp2⟩, ?_, ?_⟩
  · rw [List.map_append]
    exact Plays.meetOnceEachWay_append h1 h2 hs hids (countP_pair_schedule_of_ids hn hlen)
  · rw [List.map_append]
    refine (h1.roundsApart hs hids).append (h2.roundsApart hs.swap hids) fun m hm m' hm' => ?_
    obtain ⟨r, -, hr, hmr⟩ := hp1.roundOf hm
    obtain ⟨r', hr', -, hmr'⟩ := hp2.roundOf hm'
    rw [hmr, hmr']
    omega
  · -- the first leg is tagged `leg1`, the return leg `leg2`
    have hmap : ((F ++ Generate.returnLeg F).map (Match.seatSlots ids)).map (·.id) =
        F.map (·.id) ++ (Generate.returnLeg F).map (·.id) := by
      rw [List.map_map, List.map_append]
      rfl
    rw [hmap, ids_scheduleFixtures, ids_returnLeg]
    refine List.nodup_append.2 ⟨nodup_tags _ _ _, nodup_tags _ _ _, fun a ha b hb hab => ?_⟩
    obtain ⟨i, rfl⟩ := mem_tags ha
    obtain ⟨j, rfl⟩ := mem_tags hb
    exact tag_ne_tag_of_length (show "leg1".length = "leg2".length by decide) (by decide) i j
      (Value.str.inj hab)

/-- A league of one leg: every two teams meet once. -/
theorem placed_league_one_leg {l : Int} (hl : l ≤ 1) :
    ∃ b b', Generate.build .league { teams := n, legs := .int l } = .ok b ∧
      Step.exec (Step.placeTeams ids) b = (.ok (), b') ∧ MeetOnce ids b'.fixtures := by
  have hs := sound_schedule_of_ids hn hlen
  refine ⟨_, _, by rw [build_league hn, if_neg (by omega)],
    exec_placeTeams_fixtures (slotsWithin_scheduleFixtures hs), ?_⟩
  exact (plays_scheduleFixtures ids).meetOnce hs hids (countP_pair_schedule_of_ids hn hlen)

/-- A round robin: every two teams meet once. -/
theorem placed_roundRobin :
    ∃ b b', Generate.build .roundRobin { teams := n } = .ok b ∧
      Step.exec (Step.placeTeams ids) b = (.ok (), b') ∧ MeetOnce ids b'.fixtures := by
  have hs := sound_schedule_of_ids hn hlen
  refine ⟨_, _, build_roundRobin hn, exec_placeTeams_fixtures (slotsWithin_scheduleFixtures hs), ?_⟩
  exact (plays_scheduleFixtures ids).meetOnce hs hids (countP_pair_schedule_of_ids hn hlen)

end Placed

/-- The fixtures of a drawn group of two teams or more: every two of its teams meet once, under
the group's letter, with the ids `group_L_1`, `group_L_2`, … in order. -/
theorem groupFixtures_meet_once {letter : String} {names : List String} (hn : 2 ≤ names.length)
    (hnames : names.Nodup) :
    MeetOnce (names.map .str) (Generate.groupFixtures letter names) ∧
      (∀ m ∈ Generate.groupFixtures letter names, m.groupLetter = .str letter) ∧
      (Generate.groupFixtures letter names).map (·.id) =
        (List.range (Generate.groupFixtures letter names).length).map
          (fun k => .str s!"group_{letter}_{k + 1}") ∧
      ((Generate.groupFixtures letter names).map (·.id)).Nodup := by
  have hids : (names.map Value.str).Nodup := hnames.map fun _ _ h => Value.str.inj h
  have hlen : (names.map Value.str).length = names.length := List.length_map ..
  have hs := sound_schedule_of_ids hn hlen
  have hid : (Generate.groupFixtures letter names).map (·.id) = _ := ids_groupFixtures hn
  refine ⟨(plays_groupFixtures hn).meetOnce hs hids (countP_pair_schedule_of_ids hn hlen),
    groupLetter_groupFixtures hn, ?_, ?_⟩
  · rw [hid, List.range_eq_range']
    rfl
  · rw [hid]
    exact nodup_tags _ _ _

/-- **Fixtures pair every team.** After placing `n ≥ 2` distinct teams, a league of two legs or
more has every two teams meet once each way round, the first leg in rounds `1, …, R` and the
return leg in rounds `R + 1, …, 2 R` for the `R` rounds of the schedule, no team twice in a
round and no two fixtures with one id. A league of one leg and a round robin have every two
teams meet once, and so do the fixtures of a drawn group of `n` teams, all under the group's
letter, with the ids `group_L_1`, `group_L_2`, … -/
theorem fixtures_pair_every_team {n : Nat} (hn : 2 ≤ n) {ids : List Value} (hids : ids.Nodup)
    (hlen : ids.length = n) :
    (∀ l : Int, 2 ≤ l → ∃ b b', Generate.build .league { teams := n, legs := .int l } = .ok b ∧
      Step.exec (Step.placeTeams ids) b = (.ok (), b') ∧ MeetOnceEachWay ids b'.fixtures ∧
      (∃ first second, b'.fixtures = first ++ second ∧ PlayedInRounds 1 (roundCount n) first ∧
        PlayedInRounds (roundCount n + 1) (2 * roundCount n) second) ∧
      RoundsApart b'.fixtures ∧ (b'.fixtures.map (·.id)).Nodup) ∧
    (∀ l : Int, l ≤ 1 → ∃ b b', Generate.build .league { teams := n, legs := .int l } = .ok b ∧
      Step.exec (Step.placeTeams ids) b = (.ok (), b') ∧ MeetOnce ids b'.fixtures) ∧
    (∃ b b', Generate.build .roundRobin { teams := n } = .ok b ∧
      Step.exec (Step.placeTeams ids) b = (.ok (), b') ∧ MeetOnce ids b'.fixtures) ∧
    (∀ (letter : String) (names : List String), names.Nodup → names.length = n →
      MeetOnce (names.map .str) (Generate.groupFixtures letter names) ∧
      (∀ m ∈ Generate.groupFixtures letter names, m.groupLetter = .str letter) ∧
      (Generate.groupFixtures letter names).map (·.id) =
        (List.range (Generate.groupFixtures letter names).length).map
          (fun k => .str s!"group_{letter}_{k + 1}") ∧
      ((Generate.groupFixtures letter names).map (·.id)).Nodup) :=
  ⟨fun _ hl => placed_league_two_legs hn hids hlen hl,
    fun _ hl => placed_league_one_leg hn hids hlen hl, placed_roundRobin hn hids hlen,
    fun _ _ hnames hnames' => groupFixtures_meet_once (hnames' ▸ hn) hnames⟩

/-- Three teams, an odd count: the schedule has three rounds, one team resting in each. -/
theorem fixtures_pair_three_teams :
    2 ≤ 3 ∧ [Value.str "a", .str "b", .str "c"].Nodup ∧
    [Value.str "a", .str "b", .str "c"].length = 3 ∧
    (∀ l : Int, 2 ≤ l → ∃ b b', Generate.build .league { teams := (3 : Nat), legs := .int l } =
        .ok b ∧
      Step.exec (Step.placeTeams [.str "a", .str "b", .str "c"]) b = (.ok (), b') ∧
      MeetOnceEachWay [.str "a", .str "b", .str "c"] b'.fixtures ∧
      (∃ first second, b'.fixtures = first ++ second ∧ PlayedInRounds 1 (roundCount 3) first ∧
        PlayedInRounds (roundCount 3 + 1) (2 * roundCount 3) second) ∧
      RoundsApart b'.fixtures ∧ (b'.fixtures.map (·.id)).Nodup) ∧
    (∀ l : Int, l ≤ 1 → ∃ b b', Generate.build .league { teams := (3 : Nat), legs := .int l } =
        .ok b ∧
      Step.exec (Step.placeTeams [.str "a", .str "b", .str "c"]) b = (.ok (), b') ∧
      MeetOnce [.str "a", .str "b", .str "c"] b'.fixtures) ∧
    (∃ b b', Generate.build .roundRobin { teams := (3 : Nat) } = .ok b ∧
      Step.exec (Step.placeTeams [.str "a", .str "b", .str "c"]) b = (.ok (), b') ∧
      MeetOnce [.str "a", .str "b", .str "c"] b'.fixtures) ∧
    (∀ (letter : String) (names : List String), names.Nodup → names.length = 3 →
      MeetOnce (names.map .str) (Generate.groupFixtures letter names) ∧
      (∀ m ∈ Generate.groupFixtures letter names, m.groupLetter = .str letter) ∧
      (Generate.groupFixtures letter names).map (·.id) =
        (List.range (Generate.groupFixtures letter names).length).map
          (fun k => .str s!"group_{letter}_{k + 1}") ∧
      ((Generate.groupFixtures letter names).map (·.id)).Nodup) :=
  ⟨by decide, by simp, rfl, fixtures_pair_every_team (by decide) (by simp) rfl⟩

end TournamentDraw
