import TournamentDraw.Proofs.Placing
import TournamentDraw.Proofs.LinkGraph

/-!
# Crossing the groups into a knockout

With an even number of groups and two qualifiers from each, the group tables are crossed into
the first round of a knockout: the winner of group `2 j` meets the runner-up of group `2 j + 1`
in match `j` of the first half, and the runner-up of group `2 j` meets the winner of group
`2 j + 1` in match `j` of the second half. On any draw whose first round has a match for each
group and no bye, this puts every qualifier in the first round once, never two teams of one
group together, and the two teams of each group in different halves (`CrossSeated`,
`exec_seedGroups_crossSeated`). Only true values are seated: a team named by the empty text
leaves its side as it was (`empty_group_winner_left_unseated`).

Two teams can only meet in a match on the way of both, reached by following winner links from
their first matches (`Bracket.LeadsTo`). On a single elimination tree (`Bracket.Halving`) the
two halves of the first round meet in the final alone, so group mates meet there at the
earliest (`cross_seeding_keeps_group_mates_apart`). Each first-round match holds one group
winner, so two winners meet from the second round on, which is the semi-finals only while there
are at most four groups (`crossed_group_winners_meet_after_first_round`); with eight, the
winners of the first and third groups can meet in a quarter-final
(`crossed_group_winners_meet_in_quarter_final`).
-/

namespace TournamentDraw

/-! ### The first round of a draw -/

namespace Bracket

variable {b : Bracket}

/-- A draw whose first round holds a match has that round first. -/
theorem head?_rounds_of_width (h : 0 < (b.roundOf 0).games.length) :
    b.rounds.head? = some (b.roundOf 0) := by
  cases hr : b.rounds with
  | nil =>
    simp only [roundOf, hr, List.getElem?_nil, Option.getD_none] at h
    exact absurd h (Nat.lt_irrefl 0)
  | cons r rs => simp [roundOf, hr]

end Bracket

/-! ### Tables crossed two by two -/

namespace Step

/-- Seeding two qualifiers from each table reads only the top two rows of each. -/
theorem seedGroups_take_two (tables : List (List Standing)) :
    seedGroups tables (.int 2) = seedGroups (tables.map (·.take 2)) (.int 2) := by
  have hrows := mapM_qualifiedRows tables 2
  have hrows' := mapM_qualifiedRows (tables.map (·.take 2)) 2
  rw [Nat.cast_ofNat] at hrows hrows'
  have htake : (fun rows : List Standing => rows.take 2) ∘
      (fun rows : List Standing => rows.take 2) = fun rows => rows.take 2 :=
    funext fun rows => by simp
  have hlong : (fun rows : List Standing => decide (rows.length ≥ 2)) ∘
      (fun rows : List Standing => rows.take 2) = fun rows => decide (rows.length ≥ 2) :=
    funext fun rows => by simp
  unfold seedGroups
  rw [hrows, hrows', List.map_map, htake, List.length_map, List.all_map, hlong]

end Step

theorem placedIn_take {tables : List (List Standing)} {a j : Nat} (hj : j < a) :
    placedIn (tables.map (·.take a)) j = placedIn tables j := by
  simp [placedIn, List.filterMap_map, hj]

/-- Tables topped by a winner at position 1 and a runner-up at position 2, as group tables are
ranked. -/
def Topped (tables : List (List Standing)) : Prop :=
  ∀ rows ∈ tables, (rows.take 2).map (·.position) = [.int 1, .int 2]

/-- Group tables whose qualifiers are crossed, two from each: an even number of at least two
groups, each topped by its winner and its runner-up, and the qualifiers distinct true values. -/
structure CrossTables (tables : List (List Standing)) : Prop where
  two_le : 2 ≤ tables.length
  even : tables.length % 2 = 0
  top : Topped tables
  nodup : (qualifiedTeams tables 2).Nodup
  truthy : ∀ v ∈ qualifiedTeams tables 2, v.truthy = true

/-- The qualifiers of group `g`: the teams of the top two rows of its table. -/
def groupPair (tables : List (List Standing)) (g : Nat) : List Value :=
  ((tables.getD g []).take 2).map (·.team)

@[simp] theorem groupPair_cons_zero (rows : List Standing) (rest : List (List Standing)) :
    groupPair (rows :: rest) 0 = (rows.take 2).map (·.team) := rfl

@[simp] theorem groupPair_cons_succ (rows : List Standing) (rest : List (List Standing))
    (g : Nat) : groupPair (rows :: rest) (g + 1) = groupPair rest g := rfl

section Tables

variable {tables : List (List Standing)}

theorem length_take_two_of_top {rows : List Standing}
    (h : (rows.take 2).map (·.position) = [.int 1, .int 2]) : (rows.take 2).length = 2 := by
  simpa using congrArg List.length h

/-- The top two rows of topped tables are ranked. -/
theorem ranked_take_two (htop : Topped tables) : Ranked (tables.map (·.take 2)) := by
  intro rows hrows i hi
  obtain ⟨rows, hr, rfl⟩ := List.mem_map.1 hrows
  have h := htop rows hr
  have hlen := length_take_two_of_top h
  have hpos := congrArg (·[i]?) h
  simp only [List.getElem?_map, List.getElem?_eq_getElem hi, Option.map_some] at hpos
  rcases (by omega : i = 0 ∨ i = 1) with rfl | rfl
  · simpa using hpos
  · simpa using hpos

/-- Of topped tables, the winners and the runners-up are one for each table. -/
theorem length_placedIn_of_top (htop : Topped tables) {j : Nat} (hj : j < 2) :
    (placedIn tables j).length = tables.length :=
  length_placedIn fun rows hr => by
    have := length_take_two_of_top (htop rows hr)
    simp at this
    omega

/-- The qualifiers of a group are qualifiers. -/
theorem mem_qualifiedTeams_of_groupPair {g : Nat} {v : Value} (hv : v ∈ groupPair tables g) :
    v ∈ qualifiedTeams tables 2 := by
  induction tables generalizing g with
  | nil => simp [groupPair] at hv
  | cons rows rest ih =>
    rw [qualifiedTeams, List.flatMap_cons, List.mem_append]
    cases g with
    | zero => exact .inl hv
    | succ g => exact .inr (ih hv)

/-- With no qualifier twice, a qualifier belongs to one group. -/
theorem eq_of_mem_groupPair (hnd : (qualifiedTeams tables 2).Nodup) {g g' : Nat} {v : Value}
    (hv : v ∈ groupPair tables g) (hv' : v ∈ groupPair tables g') : g = g' := by
  induction tables generalizing g g' with
  | nil => simp [groupPair] at hv
  | cons rows rest ih =>
    rw [qualifiedTeams, List.flatMap_cons, List.nodup_append] at hnd
    obtain ⟨-, hrest, hdisj⟩ := hnd
    cases g with
    | zero =>
      cases g' with
      | zero => rfl
      | succ g' => exact absurd rfl (hdisj v hv v (mem_qualifiedTeams_of_groupPair hv'))
    | succ g =>
      cases g' with
      | zero => exact absurd rfl (hdisj v hv' v (mem_qualifiedTeams_of_groupPair hv))
      | succ g' => exact congrArg (· + 1) (ih hrest hv hv')

/-- The winner and the runner-up of a group, read off the winners and the runners-up in group
order, are among its qualifiers. -/
theorem mem_groupPair_of_placedIn (htop : Topped tables) {j g : Nat} (hj : j < 2) {v : Value}
    (hv : (placedIn tables j)[g]? = some v) : v ∈ groupPair tables g := by
  induction tables generalizing g with
  | nil => simp [placedIn] at hv
  | cons rows rest ih =>
    have hlen := length_take_two_of_top (htop rows List.mem_cons_self)
    have hjr : j < rows.length := by simp at hlen; omega
    rw [placedIn, List.filterMap_cons, List.getElem?_eq_getElem hjr, Option.map_some] at hv
    cases g with
    | zero =>
      cases hv
      have hj2 : j < (rows.take 2).length := by omega
      have hmem : (rows.take 2)[j] ∈ rows.take 2 := List.getElem_mem _
      rw [List.getElem_take] at hmem
      exact List.mem_map_of_mem hmem
    | succ g => exact ih (fun rows hr => htop rows (List.mem_cons_of_mem _ hr)) hv

end Tables

section Seed

variable {tables : List (List Standing)} {b₀ : Bracket} {first : Round}

/-- **Crossing the groups, read off the top rows.** An even number of at least two topped
tables, as many as the first round has matches, none of them a bye: the first round takes the
crossed pairs in turn. -/
theorem exec_seedGroups_crossed (h2 : 2 ≤ tables.length) (heven : tables.length % 2 = 0)
    (htop : Topped tables) (hfirst : b₀.rounds.head? = some first)
    (hwidth : first.games.length = tables.length) (hbye : first.games.any (·.isBye) = false) :
    Step.exec (Step.seedGroups tables (.int 2)) b₀ = (.ok (), b₀.crossed tables.length
      (Step.crossPairs (placedIn tables 0) (placedIn tables 1) tables.length)) := by
  have hc : Crosses (tables.map (·.take 2)) 2 first := by
    refine ⟨by simpa using h2, by simpa using heven, rfl, fun rows hrows => ?_, hbye⟩
    obtain ⟨rows, hr, rfl⟩ := List.mem_map.1 hrows
    exact (length_take_two_of_top (htop rows hr)).ge
  rw [Step.seedGroups_take_two, exec_seedGroups_of_crosses (ranked_take_two htop) hfirst hc,
    hwidth, List.length_map, placedIn_take (by decide), placedIn_take (by decide)]

end Seed

/-- What crossing the groups leaves in a draw `b` seeded from `b₀`: the winner of group `2 j`
against the runner-up of group `2 j + 1` in match `j`, the runner-up of group `2 j` against the
winner of group `2 j + 1` in match `j` of the second half, the first round holding the
qualifiers, and the rest of the draw as it was. -/
structure CrossSeated (tables : List (List Standing)) (b₀ b : Bracket) : Prop where
  pairs : ∀ j < tables.length / 2,
    (placedIn tables 0)[2 * j]? = some (b.game ⟨0, j⟩).team1 ∧
      (placedIn tables 1)[2 * j + 1]? = some (b.game ⟨0, j⟩).team2 ∧
      (placedIn tables 1)[2 * j]? = some (b.game ⟨0, tables.length / 2 + j⟩).team1 ∧
      (placedIn tables 0)[2 * j + 1]? = some (b.game ⟨0, tables.length / 2 + j⟩).team2
  sides : b.firstSides = ↑(qualifiedTeams tables 2)
  later : ∀ p, p.round ≠ 0 → b.game p = b₀.game p
  skeleton_eq : b.skeleton = b₀.skeleton
  wired : b₀.Wired → b.Wired

section Crossing

variable {tables : List (List Standing)} {b₀ : Bracket}

/-- **Crossing the groups.** Crossable tables seeded into a draw whose first round has a match
for each group and no bye leave it crossed. -/
theorem exec_seedGroups_crossSeated (hT : CrossTables tables)
    (hwidth : (b₀.roundOf 0).games.length = tables.length)
    (hbye : (b₀.roundOf 0).games.any (·.isBye) = false) :
    ∃ b, Step.exec (Step.seedGroups tables (.int 2)) b₀ = (.ok (), b) ∧
      CrossSeated tables b₀ b := by
  have hfirst := Bracket.head?_rounds_of_width (b := b₀) (by have := hT.two_le; omega)
  have hW := length_placedIn_of_top hT.top (j := 0) (by decide)
  have hS := length_placedIn_of_top hT.top (j := 1) (by decide)
  have hperm := placedIn_perm_qualifiedTeams tables
  have hv : ∀ v ∈ placedIn tables 0 ++ placedIn tables 1, v.truthy = true := fun v hv =>
    hT.truthy v (hperm.subset hv)
  refine ⟨_, exec_seedGroups_crossed hT.two_le hT.even hT.top hfirst hwidth hbye,
    ⟨fun j hj => ?_, ?_, fun p hp => ?_, Bracket.Fresh.skeleton_crossed _,
      fun hw => Bracket.Fresh.wired_crossed hw _⟩⟩
  · exact Bracket.crossed_pairs hwidth.ge hT.even hW hS hv hj
  · rw [Bracket.firstSides_crossed hwidth hT.even hW hS hv]
    exact Multiset.coe_eq_coe.2 hperm
  · exact Bracket.game_crossed_of_round_pos _ hwidth.ge hp

namespace CrossSeated

variable {b : Bracket} (hb : CrossSeated tables b₀ b)
include hb

/-- No first-round match of crossed tables holds two teams of one group. -/
theorem apart (hT : CrossTables tables) {i : Nat} (hi : i < tables.length) (g : Nat) :
    ¬((b.game ⟨0, i⟩).team1 ∈ groupPair tables g ∧
      (b.game ⟨0, i⟩).team2 ∈ groupPair tables g) := by
  rintro ⟨h1, h2⟩
  have hmem : ∀ {j g : Nat} {v : Value}, j < 2 → (placedIn tables j)[g]? = some v →
      v ∈ groupPair tables g := fun hj hv => mem_groupPair_of_placedIn hT.top hj hv
  have huniq : ∀ {g g' : Nat} {v : Value}, v ∈ groupPair tables g → v ∈ groupPair tables g' →
      g = g' := fun hv hv' => eq_of_mem_groupPair hT.nodup hv hv'
  -- the two sides come from the neighbouring groups `2 j` and `2 j + 1`
  by_cases hih : i < tables.length / 2
  · obtain ⟨hw, hs, -, -⟩ := hb.pairs i hih
    have := (huniq (hmem (by decide) hw) h1).trans (huniq h2 (hmem (by decide) hs))
    omega
  · obtain ⟨j, rfl⟩ : ∃ j, i = tables.length / 2 + j := ⟨i - tables.length / 2, by omega⟩
    obtain ⟨-, -, hs, hw⟩ := hb.pairs j (by have := hT.even; omega)
    have := (huniq (hmem (by decide) hs) h1).trans (huniq h2 (hmem (by decide) hw))
    omega

/-- Each first-round match of crossed tables holds exactly one group winner. -/
theorem one_winner (hT : CrossTables tables) {i : Nat} (hi : i < tables.length) :
    (b.game ⟨0, i⟩).team1 ∈ placedIn tables 0 ↔ (b.game ⟨0, i⟩).team2 ∉ placedIn tables 0 := by
  -- no runner-up is a group winner
  have hdisj := (List.nodup_append.1
    ((placedIn_perm_qualifiedTeams tables).nodup_iff.2 hT.nodup)).2.2
  have hrunner : ∀ {v k}, (placedIn tables 1)[k]? = some v → v ∉ placedIn tables 0 :=
    fun hv hw => hdisj _ hw _ (List.mem_of_getElem? hv) rfl
  by_cases hih : i < tables.length / 2
  · obtain ⟨hw, hs, -, -⟩ := hb.pairs i hih
    exact iff_of_true (List.mem_of_getElem? hw) (hrunner hs)
  · obtain ⟨j, rfl⟩ : ∃ j, i = tables.length / 2 + j := ⟨i - tables.length / 2, by omega⟩
    obtain ⟨-, -, hs, hw⟩ := hb.pairs j (by have := hT.even; omega)
    exact iff_of_false (hrunner hs) (not_not.2 (List.mem_of_getElem? hw))

end CrossSeated

end Crossing

/-! ### Meeting in a single elimination tree -/

namespace Bracket

/-- The match at `q` lies on the way of the winner of the match at `p`: following winner links
from `p` leads to `q`. Two teams can meet only in a match on the way of both. -/
def LeadsTo (b : Bracket) (p q : Pos) : Prop :=
  Relation.ReflTransGen (fun x y => b.dest x .next = some y) p q

/-- A single elimination tree of `k` rounds: round `j` holds `2 ^ k / 2 ^ (j + 1)` matches, and
the winner of match `i` of a round before the last goes on to match `i / 2` of the next round,
the winner of the last round nowhere. -/
structure Halving (k : Nat) (b : Bracket) : Prop where
  one_le : 1 ≤ k
  width : ∀ j < k, (b.roundOf j).games.length = 2 ^ k / 2 ^ (j + 1)
  next : ∀ p ∈ b.positions, p.round < k →
    b.dest p .next = if p.round + 1 < k then some ⟨p.round + 1, p.index / 2⟩ else none

/-- Halving an index of the first round `r` times stays within round `r`. -/
theorem div_pow_lt_width {k i r : Nat} (hi : i < 2 ^ k / 2) (hr : r < k) :
    i / 2 ^ r < 2 ^ k / 2 ^ (r + 1) := by
  have hk : 2 ^ k / 2 ^ (r + 1) * 2 ^ r = 2 ^ k / 2 := by
    have h2 : 2 ^ k / 2 = 2 ^ (k - 1) := by simpa using Nat.pow_div (show 1 ≤ k by omega) two_pos
    rw [Nat.pow_div (by omega) two_pos, h2, ← pow_add]
    congr 1
    omega
  rw [Nat.div_lt_iff_lt_mul (Nat.two_pow_pos r), hk]
  exact hi

namespace Halving

variable {k : Nat} {b : Bracket} (h : b.Halving k)
include h

theorem mem_positions {j x : Nat} (hj : j < k) :
    (⟨j, x⟩ : Pos) ∈ b.positions ↔ x < 2 ^ k / 2 ^ (j + 1) := by
  rw [mem_positions_iff_lt, h.width j hj]

/-- The winner of first-round match `i` goes through match `i / 2 ^ r` of each round `r`, and
through no other match. -/
theorem leadsTo_iff {i : Nat} (hi : i < 2 ^ k / 2) {q : Pos} :
    b.LeadsTo ⟨0, i⟩ q ↔ q.round < k ∧ q.index = i / 2 ^ q.round := by
  have hk := h.one_le
  constructor
  · intro hq
    -- induction on the path: each winner link halves the index and goes one round on
    induction hq with
    | refl => exact ⟨by dsimp only; omega, by simp⟩
    | @tail m q _ hstep ih =>
      obtain ⟨hm, hmi⟩ := ih
      have hmem : m ∈ b.positions := by
        obtain ⟨r, x⟩ := m
        dsimp only at hm hmi
        rw [h.mem_positions hm, hmi]
        exact div_pow_lt_width hi hm
      rw [h.next m hmem hm] at hstep
      split at hstep
      · next hnext =>
        cases hstep
        refine ⟨hnext, ?_⟩
        dsimp only
        rw [hmi, Nat.div_div_eq_div_mul, pow_succ]
      · cases hstep
  · rintro ⟨hq, hqi⟩
    obtain ⟨r, x⟩ := q
    dsimp only at hq hqi
    subst hqi
    induction r with
    | zero =>
      rw [pow_zero, Nat.div_one]
      exact .refl
    | succ r ih =>
      refine (ih (by omega)).tail ?_
      have hmem : (⟨r, i / 2 ^ r⟩ : Pos) ∈ b.positions :=
        (h.mem_positions (by omega)).2 (div_pow_lt_width hi (by omega))
      rw [h.next _ hmem (by dsimp only; omega), if_pos (by dsimp only; omega)]
      dsimp only
      rw [Nat.div_div_eq_div_mul, pow_succ]

/-- Two first-round matches meet in the matches both their winners go through: in round `r`
when their indices agree once halved `r` times. -/
theorem meet_iff {i i' : Nat} (hi : i < 2 ^ k / 2) (hi' : i' < 2 ^ k / 2) {q : Pos} :
    b.LeadsTo ⟨0, i⟩ q ∧ b.LeadsTo ⟨0, i'⟩ q ↔
      q.round < k ∧ q.index = i / 2 ^ q.round ∧ i' / 2 ^ q.round = i / 2 ^ q.round := by
  rw [h.leadsTo_iff hi, h.leadsTo_iff hi']
  constructor
  · rintro ⟨⟨hq, hqi⟩, -, hqi'⟩
    exact ⟨hq, hqi, hqi'.symm.trans hqi⟩
  · rintro ⟨hq, hqi, heq⟩
    exact ⟨⟨hq, hqi⟩, hq, hqi.trans heq.symm⟩

/-- Two different first-round matches meet from the second round on. -/
theorem one_le_round_of_meet {i i' : Nat} (hi : i < 2 ^ k / 2) (hi' : i' < 2 ^ k / 2)
    (hne : i ≠ i') {q : Pos} (hq : b.LeadsTo ⟨0, i⟩ q) (hq' : b.LeadsTo ⟨0, i'⟩ q) :
    1 ≤ q.round := by
  obtain ⟨-, -, heq⟩ := (h.meet_iff hi hi').1 ⟨hq, hq'⟩
  rcases Nat.eq_zero_or_pos q.round with h0 | h0
  · rw [h0, pow_zero, Nat.div_one, Nat.div_one] at heq
    exact absurd heq.symm hne
  · exact h0

/-- **The two halves meet only in the final.** A match of the first half of the first round and
a match of the second half meet in the final match alone. -/
theorem meet_halves_iff {i i' : Nat} (hi : i < 2 ^ k / 2 / 2) (hi' : 2 ^ k / 2 / 2 ≤ i')
    (hi'' : i' < 2 ^ k / 2) {q : Pos} :
    b.LeadsTo ⟨0, i⟩ q ∧ b.LeadsTo ⟨0, i'⟩ q ↔ q = ⟨k - 1, 0⟩ := by
  have hk2 : 2 ≤ k := by
    by_contra hk
    obtain rfl | rfl : k = 0 ∨ k = 1 := by omega
    all_goals simp at hi
  -- the first round is `2 ^ (k - 1)` wide and each half `2 ^ (k - 2)`
  have hN : 2 ^ k / 2 = 2 ^ (k - 1) := by simpa using Nat.pow_div (show 1 ≤ k by omega) two_pos
  have hH : 2 ^ k / 2 / 2 = 2 ^ (k - 2) := by
    rw [hN, show k - 2 = k - 1 - 1 by omega]
    simpa using Nat.pow_div (show 1 ≤ k - 1 by omega) two_pos
  have hlast : ∀ x < 2 ^ k / 2, x / 2 ^ (k - 1) = 0 := fun x hx =>
    Nat.div_eq_of_lt (hN ▸ hx)
  rw [h.meet_iff (by omega) hi'']
  constructor
  · rintro ⟨hq, hqi, heq⟩
    obtain ⟨r, x⟩ := q
    dsimp only at hq hqi heq
    -- below the final the two halves stay apart: `i` halved is below the half, `i'` not
    have hr : r = k - 1 := by
      by_contra hr
      have hdvd : 2 ^ r ∣ 2 ^ k / 2 / 2 := hH ▸ Nat.pow_dvd_pow 2 (by omega)
      have hlt : i / 2 ^ r < 2 ^ k / 2 / 2 / 2 ^ r := Nat.div_lt_div_of_lt_of_dvd hdvd hi
      have hle : 2 ^ k / 2 / 2 / 2 ^ r ≤ i' / 2 ^ r := Nat.div_le_div_right hi'
      omega
    subst hr
    rw [hqi, hlast i (by omega)]
  · rintro rfl
    exact ⟨by dsimp only; omega, (hlast i (by omega)).symm,
      (hlast i' hi'').trans (hlast i (by omega)).symm⟩

/-- Seeding teams keeps the tree: a draw with the links of a tree is that tree. -/
theorem of_skeleton {c : Bracket} (hw : b.Wired) (hw' : c.Wired)
    (hs : c.skeleton = b.skeleton) : c.Halving k where
  one_le := h.one_le
  width j hj := (length_roundOf_of_positions (positions_eq_of_skeleton hs) j).trans (h.width j hj)
  next p hp hr := by
    rw [dest_eq_of_skeleton hw hw' hs]
    exact h.next p (positions_eq_of_skeleton hs ▸ hp) hr

end Halving

end Bracket

namespace Generate

/-- Generated single elimination of `k` rounds is a single elimination tree. -/
theorem halving_singleDraw {k byes : Nat} {third : Bool} {tp seed : Value} (hk : 1 ≤ k)
    (hthird : third = true → 2 ≤ k) : (singleDraw k byes third tp seed).Halving k where
  one_le := hk
  width _ hj := (roundOf_singleDraw hthird hj).2
  next _ hp _ := (laid_singleDraw hthird).dest_eq hp .next

/-- Generated single elimination for `2 ^ k` teams: its first round is `2 ^ k / 2` matches, none
of them a bye. -/
theorem firstRound_singleDraw {k : Nat} {tp seed : Value} (hk : 1 ≤ k) :
    ((singleDraw k 0 false tp seed).roundOf 0).games.length = 2 ^ k / 2 ∧
      ((singleDraw k 0 false tp seed).roundOf 0).games.any (·.isBye) = false := by
  have hF := @fresh_singleDraw k false tp seed (2 ^ k) hk (by simp)
  rw [Nat.sub_self] at hF
  have hw : ((singleDraw k 0 false tp seed).roundOf 0).games.length = 2 ^ k / 2 := by
    simpa using (@roundOf_singleDraw k 0 false tp seed (by simp) 0 (by omega)).2
  have hpos : 0 < ((singleDraw k 0 false tp seed).roundOf 0).games.length := by
    rw [hw]
    exact Nat.div_pos (Nat.le_self_pow (by omega) 2) (by decide)
  refine ⟨hw, ?_⟩
  rw [hF.any_isBye (Bracket.head?_rounds_of_width hpos), two_mul_pow_div_two hk]
  simp

end Generate

/-- Crossed into a tree, the draw stays that tree, with one first-round match per group. -/
theorem CrossSeated.halving {tables : List (List Standing)} {b₀ b : Bracket}
    (hb : CrossSeated tables b₀ b) {k : Nat} (hw₀ : b₀.Wired) (hH : b₀.Halving k)
    (hwidth : (b₀.roundOf 0).games.length = tables.length) :
    b.Halving k ∧ tables.length = 2 ^ k / 2 := by
  refine ⟨hH.of_skeleton hw₀ (hb.wired hw₀) hb.skeleton_eq, ?_⟩
  rw [← hwidth, hH.width 0 hH.one_le, pow_one]

/-! ### Crossing keeps group mates apart -/

/-- The tables of groups of two, each given by its winner and its runner-up. -/
def pairTables (pairs : List (String × String)) : List (List Standing) :=
  pairs.map fun x =>
    [{ team := .str x.1, position := .int 1 }, { team := .str x.2, position := .int 2 }]

theorem topped_pairTables (pairs : List (String × String)) : Topped (pairTables pairs) := by
  intro rows hrows
  obtain ⟨x, -, rfl⟩ := List.mem_map.1 hrows
  rfl

theorem qualifiedTeams_pairTables (pairs : List (String × String)) :
    qualifiedTeams (pairTables pairs) 2 = (pairs.flatMap fun x => [x.1, x.2]).map .str := by
  simp [qualifiedTeams, pairTables, List.map_flatMap, List.flatMap_map]

/-- Groups of two named apart by nonempty texts, an even number of at least two, are
crossable. -/
theorem crossTables_pairTables {pairs : List (String × String)} (h2 : 2 ≤ pairs.length)
    (heven : pairs.length % 2 = 0) (hnd : (pairs.flatMap fun x => [x.1, x.2]).Nodup)
    (hne : ∀ s ∈ pairs.flatMap (fun x => [x.1, x.2]), s ≠ "") :
    CrossTables (pairTables pairs) where
  two_le := by simpa [pairTables] using h2
  even := by simpa [pairTables] using heven
  top := topped_pairTables pairs
  nodup := by
    rw [qualifiedTeams_pairTables]
    exact hnd.map fun _ _ h => Value.str.inj h
  truthy v hv := by
    rw [qualifiedTeams_pairTables] at hv
    obtain ⟨s, hs, rfl⟩ := List.mem_map.1 hv
    simp [Value.truthy, hne s hs]

/-- **Crossing keeps group mates apart until the final.** -/
theorem cross_seeding_keeps_group_mates_apart {tables : List (List Standing)} {b₀ : Bracket}
    (hT : CrossTables tables) (hwidth : (b₀.roundOf 0).games.length = tables.length)
    (hbye : (b₀.roundOf 0).games.any (·.isBye) = false) :
    ∃ b, Step.exec (Step.seedGroups tables (.int 2)) b₀ = (.ok (), b) ∧ CrossSeated tables b₀ b ∧
      (∀ i < tables.length, ∀ g, ¬((b.game ⟨0, i⟩).team1 ∈ groupPair tables g ∧
        (b.game ⟨0, i⟩).team2 ∈ groupPair tables g)) ∧
      (∀ k, b₀.Wired → b₀.Halving k → ∀ j < tables.length / 2, ∀ q,
        b.LeadsTo ⟨0, j⟩ q ∧ b.LeadsTo ⟨0, tables.length / 2 + j⟩ q ↔ q = ⟨k - 1, 0⟩) := by
  obtain ⟨b, hexec, hb⟩ := exec_seedGroups_crossSeated hT hwidth hbye
  refine ⟨b, hexec, hb, fun i hi g => hb.apart hT hi g, fun k hw₀ hH j hj q => ?_⟩
  obtain ⟨hH', hG⟩ := hb.halving hw₀ hH hwidth
  have heven := hT.even
  exact hH'.meet_halves_iff (by omega) (by omega) (by omega)

/-- Two groups crossed into the generated draw for four teams. -/
theorem cross_seeding_two_groups :
    CrossTables (pairTables [("a1", "a2"), ("b1", "b2")]) ∧
      ((Generate.singleDraw 2 0 false .null .null).roundOf 0).games.length =
        (pairTables [("a1", "a2"), ("b1", "b2")]).length ∧
      ((Generate.singleDraw 2 0 false .null .null).roundOf 0).games.any (·.isBye) = false ∧
      ∃ b, Step.exec (Step.seedGroups (pairTables [("a1", "a2"), ("b1", "b2")]) (.int 2))
          (Generate.singleDraw 2 0 false .null .null) = (.ok (), b) ∧
        CrossSeated (pairTables [("a1", "a2"), ("b1", "b2")])
          (Generate.singleDraw 2 0 false .null .null) b ∧
        (∀ i < (pairTables [("a1", "a2"), ("b1", "b2")]).length, ∀ g,
          ¬((b.game ⟨0, i⟩).team1 ∈ groupPair (pairTables [("a1", "a2"), ("b1", "b2")]) g ∧
            (b.game ⟨0, i⟩).team2 ∈ groupPair (pairTables [("a1", "a2"), ("b1", "b2")]) g)) ∧
        (∀ k, (Generate.singleDraw 2 0 false .null .null).Wired →
          (Generate.singleDraw 2 0 false .null .null).Halving k →
          ∀ j < (pairTables [("a1", "a2"), ("b1", "b2")]).length / 2, ∀ q,
            b.LeadsTo ⟨0, j⟩ q ∧
                b.LeadsTo ⟨0, (pairTables [("a1", "a2"), ("b1", "b2")]).length / 2 + j⟩ q ↔
              q = ⟨k - 1, 0⟩) := by
  have hT : CrossTables (pairTables [("a1", "a2"), ("b1", "b2")]) :=
    crossTables_pairTables (by decide) (by decide) (by decide) (by decide)
  obtain ⟨hw, hbye⟩ := @Generate.firstRound_singleDraw 2 .null .null (by decide)
  have hwidth : ((Generate.singleDraw 2 0 false .null .null).roundOf 0).games.length =
      (pairTables [("a1", "a2"), ("b1", "b2")]).length := hw.trans rfl
  exact ⟨hT, hwidth, hbye, cross_seeding_keeps_group_mates_apart hT hwidth hbye⟩

/-- A group winner named by the empty text is not seated: crossing sets a side only for a
true team value, so the first match of the generated four-team draw keeps its first side
empty. -/
theorem empty_group_winner_left_unseated :
    Generate.singleElimination (.int 4) .null .null =
        .ok (Generate.singleDraw 2 0 false .null .null) ∧
      ∃ b, Step.exec (Step.seedGroups (pairTables [("", "a2"), ("b1", "b2")]) (.int 2))
          (Generate.singleDraw 2 0 false .null .null) = (.ok (), b) ∧
        (placedIn (pairTables [("", "a2"), ("b1", "b2")]) 0)[0]? = some (.str "") ∧
        (b.game ⟨0, 0⟩).team1 = .null ∧ (b.game ⟨0, 0⟩).team2 = .str "b2" := by
  have hk : Shape.ceilLog2 4 = 2 :=
    Shape.ceilLog2_eq_of_bounds (by decide) (by decide) (by decide) (by decide)
  obtain ⟨hw, hbye⟩ := @Generate.firstRound_singleDraw 2 .null .null (by decide)
  have hfirst := Bracket.head?_rounds_of_width (by rw [hw]; decide)
  have hF := @Generate.fresh_singleDraw 2 false .null .null 4 (by decide) (by simp)
  refine ⟨?_, _, exec_seedGroups_crossed (by decide) (by decide) (topped_pairTables _) hfirst
    (hw.trans rfl) hbye, rfl, ?_⟩
  · rw [Generate.singleElimination_int (by decide), show Int.toNat 4 = 4 from rfl, hk]
    rfl
  · rw [Bracket.game_crossed_of_lt _ (by rw [hw]; rfl) (by decide) (by decide)]
    have hblank := (hF.blank ⟨0, 0⟩ (hF.mem_first (by decide))).1
    exact ⟨hblank, rfl⟩

/-! ### Crossed group winners -/

/-- **Crossed group winners meet after the first round.** Each first-round match holds
exactly one group winner, and two first-round matches lead into a common match only from the
second round on; with at most four groups, only from the semi-finals on. -/
theorem crossed_group_winners_meet_after_first_round {tables : List (List Standing)}
    {b₀ : Bracket} {k : Nat} (hT : CrossTables tables) (hw₀ : b₀.Wired) (hH : b₀.Halving k)
    (hwidth : (b₀.roundOf 0).games.length = tables.length)
    (hbye : (b₀.roundOf 0).games.any (·.isBye) = false) :
    ∃ b, Step.exec (Step.seedGroups tables (.int 2)) b₀ = (.ok (), b) ∧
      (∀ i < tables.length,
        ((b.game ⟨0, i⟩).team1 ∈ placedIn tables 0 ↔ (b.game ⟨0, i⟩).team2 ∉ placedIn tables 0)) ∧
      (∀ i < tables.length, ∀ i' < tables.length, i ≠ i' → ∀ q, b.LeadsTo ⟨0, i⟩ q →
        b.LeadsTo ⟨0, i'⟩ q → 1 ≤ q.round ∧ (tables.length ≤ 4 → k - 2 ≤ q.round)) := by
  obtain ⟨b, hexec, hb⟩ := exec_seedGroups_crossSeated hT hwidth hbye
  obtain ⟨hH', hG⟩ := hb.halving hw₀ hH hwidth
  refine ⟨b, hexec, fun i hi => hb.one_winner hT hi, fun i hi i' hi' hne q hq hq' => ?_⟩
  have hround := hH'.one_le_round_of_meet (hG ▸ hi) (hG ▸ hi') hne hq hq'
  refine ⟨hround, fun hsmall => ?_⟩
  -- at most four groups make a tree of at most three rounds
  have hk : k ≤ 3 := by
    by_contra hk
    have h16 : 2 ^ 4 ≤ 2 ^ k := Nat.pow_le_pow_right (by decide) (by omega)
    have : 2 ^ 4 / 2 ≤ 2 ^ k / 2 := Nat.div_le_div_right h16
    omega
  omega

/-- Two groups crossed into the generated four-team draw. -/
theorem crossed_group_winners_apart_two_groups :
    CrossTables (pairTables [("a1", "a2"), ("b1", "b2")]) ∧
      (Generate.singleDraw 2 0 false .null .null).Wired ∧
      (Generate.singleDraw 2 0 false .null .null).Halving 2 ∧
      ((Generate.singleDraw 2 0 false .null .null).roundOf 0).games.length =
        (pairTables [("a1", "a2"), ("b1", "b2")]).length ∧
      ((Generate.singleDraw 2 0 false .null .null).roundOf 0).games.any (·.isBye) = false ∧
      ∃ b, Step.exec (Step.seedGroups (pairTables [("a1", "a2"), ("b1", "b2")]) (.int 2))
          (Generate.singleDraw 2 0 false .null .null) = (.ok (), b) ∧
        (∀ i < (pairTables [("a1", "a2"), ("b1", "b2")]).length,
          ((b.game ⟨0, i⟩).team1 ∈ placedIn (pairTables [("a1", "a2"), ("b1", "b2")]) 0 ↔
            (b.game ⟨0, i⟩).team2 ∉ placedIn (pairTables [("a1", "a2"), ("b1", "b2")]) 0)) ∧
        (∀ i < (pairTables [("a1", "a2"), ("b1", "b2")]).length,
          ∀ i' < (pairTables [("a1", "a2"), ("b1", "b2")]).length, i ≠ i' → ∀ q,
            b.LeadsTo ⟨0, i⟩ q → b.LeadsTo ⟨0, i'⟩ q →
              1 ≤ q.round ∧ ((pairTables [("a1", "a2"), ("b1", "b2")]).length ≤ 4 →
                2 - 2 ≤ q.round)) := by
  have hT : CrossTables (pairTables [("a1", "a2"), ("b1", "b2")]) :=
    crossTables_pairTables (by decide) (by decide) (by decide) (by decide)
  have hw₀ := @Generate.wired_singleDraw 2 0 false .null .null (by simp)
  have hH := @Generate.halving_singleDraw 2 0 false .null .null (by decide) (by simp)
  obtain ⟨hw, hbye⟩ := @Generate.firstRound_singleDraw 2 .null .null (by decide)
  have hwidth : ((Generate.singleDraw 2 0 false .null .null).roundOf 0).games.length =
      (pairTables [("a1", "a2"), ("b1", "b2")]).length := hw.trans rfl
  exact ⟨hT, hw₀, hH, hwidth, hbye,
    crossed_group_winners_meet_after_first_round hT hw₀ hH hwidth hbye⟩

/-- With eight groups the winners of the first and the third group are seated in the first two
matches, which both lead into the first quarter-final. -/
theorem crossed_group_winners_meet_in_quarter_final :
    Generate.singleElimination (.int 16) .null .null =
        .ok (Generate.singleDraw 4 0 false .null .null) ∧
      ∃ b, Step.exec (Step.seedGroups (pairTables [("1A", "2A"), ("1B", "2B"), ("1C", "2C"),
            ("1D", "2D"), ("1E", "2E"), ("1F", "2F"), ("1G", "2G"), ("1H", "2H")]) (.int 2))
          (Generate.singleDraw 4 0 false .null .null) = (.ok (), b) ∧
        b.rounds.length = 4 ∧ (b.game ⟨0, 0⟩).team1 = .str "1A" ∧
        (b.game ⟨0, 1⟩).team1 = .str "1C" ∧ b.LeadsTo ⟨0, 0⟩ ⟨1, 0⟩ ∧ b.LeadsTo ⟨0, 1⟩ ⟨1, 0⟩ := by
  have hk : Shape.ceilLog2 16 = 4 :=
    Shape.ceilLog2_eq_of_bounds (by decide) (by decide) (by decide) (by decide)
  have hT := @crossTables_pairTables [("1A", "2A"), ("1B", "2B"), ("1C", "2C"), ("1D", "2D"),
    ("1E", "2E"), ("1F", "2F"), ("1G", "2G"), ("1H", "2H")] (by decide) (by decide) (by decide)
    (by decide)
  have hw₀ := @Generate.wired_singleDraw 4 0 false .null .null (by simp)
  have hH := @Generate.halving_singleDraw 4 0 false .null .null (by decide) (by simp)
  obtain ⟨hw, hbye⟩ := @Generate.firstRound_singleDraw 4 .null .null (by decide)
  obtain ⟨b, hexec, hb⟩ := exec_seedGroups_crossSeated hT (hw.trans rfl) hbye
  obtain ⟨hH', -⟩ := hb.halving hw₀ hH (hw.trans rfl)
  obtain ⟨hA, -, -, -⟩ := hb.pairs 0 (by decide)
  obtain ⟨hC, -, -, -⟩ := hb.pairs 1 (by decide)
  have hlen : b.rounds.length = 4 := by
    have := congrArg List.length hb.skeleton_eq
    simpa [Bracket.skeleton, Generate.singleDraw, Generate.length_singleLadder] using this
  refine ⟨?_, b, hexec, hlen, (Option.some.inj hA).symm, (Option.some.inj hC).symm,
    (hH'.leadsTo_iff (by decide)).2 ⟨by decide, by decide⟩,
    (hH'.leadsTo_iff (by decide)).2 ⟨by decide, by decide⟩⟩
  rw [Generate.singleElimination_int (by decide), show Int.toNat 16 = 16 from rfl, hk]
  rfl

end TournamentDraw
