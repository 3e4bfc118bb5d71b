import TournamentDraw.Proofs.ByePass
import TournamentDraw.Proofs.Sorting
import TournamentDraw.Proofs.GroupTable
import TournamentDraw.Proofs.PotDeal

/-!
# Seeding the qualifiers of group tables

The knockout stage of a group competition takes the first `a` rows of every group table. Its
seeding reads the tables only through their positions: the rows at position 1 are the group
winners, the others the runners-up and below. On tables ranked as `groupTable` ranks them, row
`i` at position `i + 1`, the winners are the first rows in table order, and sorting the others
stably by position lays them out place by place, each place in table order. So the seeds come
in the order `seedOrder`: every winner, then every runner-up, and so on
(`exec_seedGroups_of_not_crosses`), a rearrangement of the qualifiers (`seedOrder_perm`).

With an even number of full groups, two qualifiers from each and no byes, the qualifiers are
instead crossed pairwise (`exec_seedGroups_of_crosses`, `crossPairs_getElem?`).
-/

namespace TournamentDraw

/-- Group tables ranked as `groupTable` ranks them: the row at index `i` is at position
`i + 1`. -/
def Ranked (tables : List (List Standing)) : Prop :=
  ∀ rows ∈ tables, ∀ i (hi : i < rows.length), rows[i].position = .int (i + 1)

/-- The teams at index `j` of their tables (`j = 0` for the group winners), in table order. -/
def placedIn (tables : List (List Standing)) (j : Nat) : List Value :=
  tables.filterMap fun rows => rows[j]?.map (·.team)

/-- The qualifiers of group tables: the teams of the first `a` rows of each, in table order. -/
def qualifiedTeams (tables : List (List Standing)) (a : Nat) : List Value :=
  tables.flatMap fun rows => (rows.take a).map (·.team)

/-- The seed order of the qualifiers: the group winners in table order, then the runners-up,
and so on down to place `a`. -/
def seedOrder (tables : List (List Standing)) (a : Nat) : List Value :=
  (List.range a).flatMap (placedIn tables)

/-- The position of a row as a number. -/
def Standing.rank (s : Standing) : Int :=
  match s.position with
  | .int n => n
  | _ => 0

section Rows

variable {l : List Standing}

/-- In a run of rows at consecutive positions from `c`, the rows at position `c + j` are the
`j`-th row alone. -/
theorem filter_rank_eq (c : Int) (hl : ∀ i (hi : i < l.length), l[i].position = .int (c + i))
    (j : Nat) : l.filter (fun s => decide (s.rank = c + j)) = l[j]?.toList := by
  induction l generalizing c j with
  | nil => rfl
  | cons x l ih =>
    have hx : x.rank = c := by
      have := hl 0 (by simp)
      simp only [List.getElem_cons_zero, Nat.cast_zero, add_zero] at this
      simp [Standing.rank, this]
    have hl' : ∀ i (hi : i < l.length), l[i].position = .int ((c + 1) + i) := fun i hi => by
      have := hl (i + 1) (by simp; omega)
      rw [List.getElem_cons_succ] at this
      rw [this]
      congr 1
      push_cast
      ring
    cases j with
    | zero =>
      -- the later rows are all further down
      rw [List.filter_cons, if_pos (by simp [hx]), List.filter_eq_nil_iff.2]
      · rfl
      · intro s hs
        obtain ⟨i, hi, rfl⟩ := List.getElem_of_mem hs
        have := hl' i hi
        simp only [Standing.rank, this, Nat.cast_zero, add_zero, decide_eq_true_eq]
        omega
    | succ j =>
      have hne : ¬x.rank = c + ((j + 1 : Nat) : Int) := by rw [hx]; omega
      have hk : c + ((j + 1 : Nat) : Int) = (c + 1) + j := by push_cast; ring
      rw [List.filter_cons, if_neg (by simpa using hne), hk, ih (c + 1) hl' j]
      rfl

theorem position_eq_rank (c : Int) (hl : ∀ i (hi : i < l.length), l[i].position = .int (c + i))
    {s : Standing} (hs : s ∈ l) : s.position = .int s.rank := by
  obtain ⟨i, hi, rfl⟩ := List.getElem_of_mem hs
  simp [Standing.rank, hl i hi]

/-- Of a ranked table, only the first row is at position 1. -/
theorem filter_eqv_one (hl : ∀ i (hi : i < l.length), l[i].position = .int (i + 1)) :
    l.filter (·.position.eqv (.int 1)) = l.take 1 ∧
      l.filter (!·.position.eqv (.int 1)) = l.drop 1 := by
  cases l with
  | nil => exact ⟨rfl, rfl⟩
  | cons x l =>
    have hx : x.position.eqv (.int 1) = true := by
      have := hl 0 (by simp)
      simp only [List.getElem_cons_zero] at this
      rw [this, Value.eqv_int]
      simp
    have hrest : ∀ s ∈ l, s.position.eqv (.int 1) = false := fun s hs => by
      obtain ⟨i, hi, rfl⟩ := List.getElem_of_mem hs
      have := hl (i + 1) (by simp; omega)
      rw [List.getElem_cons_succ] at this
      rw [this, Value.eqv_int, decide_eq_false_iff_not]
      omega
    refine ⟨?_, ?_⟩
    · rw [List.filter_cons, if_pos hx, List.filter_eq_nil_iff.2 fun s hs => by simp [hrest s hs]]
      rfl
    · rw [List.filter_cons, if_neg (by simp [hx]), List.filter_eq_self.2 fun s hs => by
        simp [hrest s hs]]
      rfl

end Rows

section Tables

variable {tables : List (List Standing)} {a : Nat}

theorem Ranked.take (hR : Ranked tables) (a : Nat) : ∀ rows ∈ tables,
    ∀ i (hi : i < (rows.take a).length), (rows.take a)[i].position = .int (i + 1) :=
  fun rows hrows i hi => by
    rw [List.getElem_take]
    exact hR rows hrows i (by simp at hi; omega)

theorem placedIn_eq (j : Nat) :
    placedIn tables j = (tables.map fun rows => (rows[j]?.toList)).flatten.map (·.team) := by
  induction tables with
  | nil => rfl
  | cons rows tables ih =>
    rw [placedIn, List.filterMap_cons, List.map_cons, List.flatten_cons, List.map_append]
    rw [placedIn] at ih
    rw [← ih]
    cases rows[j]? <;> rfl

/-- The group winners among the qualifiers, in table order. -/
theorem winners_eq (hR : Ranked tables) (ha : 1 ≤ a) :
    (((tables.map (·.take a)).flatten.filter (·.position.eqv (.int 1))).map (·.team)) =
      placedIn tables 0 := by
  rw [List.filter_flatten, List.map_map, placedIn_eq]
  congr 2
  refine List.map_congr_left fun rows hrows => ?_
  rw [Function.comp_apply, (filter_eqv_one (hR.take a rows hrows)).1, List.take_take,
    Nat.min_eq_left ha]
  cases rows <;> rfl

/-- The qualifiers below the group winners, group after group. -/
theorem runners_eq (hR : Ranked tables) :
    (tables.map (·.take a)).flatten.filter (!·.position.eqv (.int 1)) =
      (tables.map fun rows => (rows.take a).drop 1).flatten := by
  rw [List.filter_flatten, List.map_map]
  congr 1
  exact List.map_congr_left fun rows hrows => (filter_eqv_one (hR.take a rows hrows)).2

/-- **The runners-up sorted.** Sorting the qualifiers below the group winners stably by
position lays them out place by place, each place in table order. -/
theorem sortWith_runners (hR : Ranked tables) :
    ∃ ordered, sortWith (fun x y => Value.relate .lt x.position y.position)
        ((tables.map fun rows => (rows.take a).drop 1).flatten) = .ok ordered ∧
      ordered.map (·.team) = (List.range' 1 (a - 1)).flatMap (placedIn tables) := by
  set runners := (tables.map fun rows => (rows.take a).drop 1).flatten with hrunners
  -- every runner sits in its table at a whole position from 2 on
  have hrows : ∀ rows ∈ tables, ∀ i (hi : i < ((rows.take a).drop 1).length),
      ((rows.take a).drop 1)[i].position = .int (2 + i) := fun rows hr i hi => by
    rw [List.getElem_drop, hR.take a rows hr]
    congr 1
    push_cast
    ring
  have hmem : ∀ x ∈ runners, ∃ rows ∈ tables, x ∈ (rows.take a).drop 1 := fun x hx => by
    simpa [hrunners] using hx
  have hint : ∀ x ∈ runners, x.position = .int x.rank := fun x hx => by
    obtain ⟨rows, hr, hxr⟩ := hmem x hx
    exact position_eq_rank 2 (hrows rows hr) hxr
  have hlt : ∀ x ∈ runners, ∀ y ∈ runners,
      Value.relate .lt x.position y.position = .ok (decide (x.rank < y.rank)) := by
    intro x hx y hy
    rw [hint x hx, hint y hy, Value.relate_int]
    congr 1
    simp only [Relation.holds]
    by_cases h : x.rank < y.rank
    · simp [h, compare_lt_iff_lt.2 h]
    · have hne : compare x.rank y.rank ≠ .lt := fun h' => h (compare_lt_iff_lt.1 h')
      simp [h, hne]
  obtain ⟨ordered, hsort, hstable⟩ := sortWith_sortsStably runners hlt
  refine ⟨ordered, hsort, ?_⟩
  have hkeys : ∀ x ∈ runners, x.rank ∈ (List.range' 1 (a - 1)).map fun j : Nat => (j : Int) + 1 :=
    fun x hx => by
      obtain ⟨rows, hr, hxr⟩ := hmem x hx
      obtain ⟨i, hi, rfl⟩ := List.getElem_of_mem hxr
      have := hrows rows hr i hi
      simp only [List.length_drop, List.length_take] at hi
      refine List.mem_map.2 ⟨i + 1, List.mem_range'_1.2 ⟨by omega, by omega⟩, ?_⟩
      simp only [Standing.rank, this]
      push_cast
      ring
  have hL : ((List.range' 1 (a - 1)).map fun j : Nat => (j : Int) + 1).Pairwise (· < ·) := by
    rw [List.pairwise_map]
    have hr : (List.range' 1 (a - 1)).Pairwise (· < ·) := List.pairwise_lt_range'
    exact hr.imp fun h => by omega
  rw [hstable.eq_flatMap hL hkeys, List.flatMap_map, List.map_flatMap]
  -- the runners at position `j + 1` are the rows at index `j` of their tables
  refine congrArg List.flatten (List.map_congr_left fun j hj => ?_)
  rw [List.mem_range'_1] at hj
  rw [placedIn_eq, hrunners, List.filter_flatten, List.map_map]
  congr 2
  refine List.map_congr_left fun rows hr => ?_
  have hk : ((j : Int) + 1) = 2 + ((j - 1 : Nat) : Int) := by omega
  rw [Function.comp_apply, hk, filter_rank_eq 2 (hrows rows hr), List.getElem?_drop,
    List.getElem?_take]
  rw [if_pos (by omega), show 1 + (j - 1) = j by omega]

/-- The seed order rearranges the qualifiers. -/
theorem seedOrder_perm (tables : List (List Standing)) (a : Nat) :
    (seedOrder tables a).Perm (qualifiedTeams tables a) := by
  have h := @Draw.flatMap_strict_perm Value a (tables.map fun rows => (rows.take a).map (·.team))
    (by simp only [List.mem_map]; rintro _ ⟨rows, -, rfl⟩; simp)
  rw [qualifiedTeams, List.flatMap_def]
  refine (List.Perm.of_eq ?_).trans h
  rw [seedOrder, List.flatMap_def, List.flatMap_def]
  refine congrArg List.flatten (List.map_congr_left fun k hk => ?_)
  rw [List.mem_range] at hk
  rw [placedIn, List.filterMap_map]
  refine List.filterMap_congr fun rows _ => ?_
  simp [hk]

/-- The seed order starts with the group winners. -/
theorem seedOrder_eq (ha : 1 ≤ a) :
    seedOrder tables a = placedIn tables 0 ++ (List.range' 1 (a - 1)).flatMap (placedIn tables) := by
  obtain ⟨b, rfl⟩ : ∃ b, a = b + 1 := ⟨a - 1, by omega⟩
  rw [seedOrder, List.range_eq_range', List.range'_succ, List.flatMap_cons, Nat.add_sub_cancel]

/-- The group winners then the runners-up are the qualifiers, in another order. -/
theorem placedIn_perm_qualifiedTeams (tables : List (List Standing)) :
    (placedIn tables 0 ++ placedIn tables 1).Perm (qualifiedTeams tables 2) := by
  have h := seedOrder_perm tables 2
  rwa [seedOrder, show List.range 2 = [0, 1] from rfl, List.flatMap_cons, List.flatMap_cons,
    List.flatMap_nil, List.append_nil] at h

/-- With two qualifiers from each table, the qualifiers below the winners are the runners-up. -/
theorem runners_two : ((tables.map fun rows => (rows.take 2).drop 1).flatten).map (·.team) =
    placedIn tables 1 := by
  rw [placedIn_eq]
  congr 2
  refine List.map_congr_left fun rows _ => ?_
  match rows with
  | [] => rfl
  | [_] => rfl
  | _ :: _ :: _ => rfl

end Tables

/-- A first-round match given the teams of a crossed pair, each where it is a true value. -/
def Match.crossedWith (t : Value × Value) (m : Match) : Match :=
  { m with team1 := if t.1.truthy then t.1 else m.team1,
           team2 := if t.2.truthy then t.2 else m.team2 }

/-- The draw with the crossed pairs set in turn into its first `w` first-round matches. -/
def Bracket.crossed (b : Bracket) (w : Nat) (pairs : List (Value × Value)) : Bracket :=
  ((List.range w).zip pairs).foldl (fun c x => c.modifyAt ⟨0, x.1⟩ (Match.crossedWith x.2)) b

namespace Step

/-- A whole-number count of qualifiers cuts every table at that many rows. -/
theorem qualifiedRows_int (rows : List Standing) (a : Nat) :
    qualifiedRows rows (.int a) = pure (rows.take a) := by
  simp [qualifiedRows, operand, Value.sliceEnd?, takeSigned]

theorem mapM_qualifiedRows (tables : List (List Standing)) (a : Nat) :
    tables.mapM (qualifiedRows · (.int a)) = pure (tables.map (·.take a)) := by
  simp only [qualifiedRows_int]
  exact List.mapM_pure

/-- The first indices of the crossed pairs: the even ones, when the groups are even. -/
theorem crossStarts_eq {g : Nat} (hg : g % 2 = 0) :
    (List.range g).filter (fun i => decide (i % 2 = 0 ∧ i + 1 < g)) =
      (List.range (g / 2)).map (2 * ·) := by
  have hevens : ∀ h, (List.range (2 * h)).filter (fun i => decide (i % 2 = 0)) =
      (List.range h).map (2 * ·) := by
    intro h
    induction h with
    | zero => rfl
    | succ h ih =>
      rw [show 2 * (h + 1) = 2 * h + 1 + 1 by ring, List.range_succ, List.range_succ,
        List.filter_append, List.filter_append, ih, List.range_succ, List.map_append]
      simp [Nat.add_mod]
  obtain ⟨h, rfl⟩ : ∃ h, g = 2 * h := ⟨g / 2, by omega⟩
  rw [Nat.mul_div_cancel_left _ (by decide), ← hevens h]
  refine List.filter_congr fun i hi => ?_
  rw [List.mem_range] at hi
  simp only [decide_eq_decide]
  omega

/-- **The cross pairing.** Of an even number `g` of groups, pair `j` sets the winner of group
`2 j` against the runner-up of group `2 j + 1`, and pair `g / 2 + j` the runner-up of group
`2 j` against the winner of group `2 j + 1`. -/
theorem crossPairs_getElem? (winners seconds : List Value) {g : Nat} (hg : g % 2 = 0) {j : Nat}
    (hj : j < g / 2) :
    (crossPairs winners seconds g)[j]? =
        some ((winners[2 * j]?).getD .null, (seconds[2 * j + 1]?).getD .null) ∧
      (crossPairs winners seconds g)[g / 2 + j]? =
        some ((seconds[2 * j]?).getD .null, (winners[2 * j + 1]?).getD .null) := by
  unfold crossPairs
  dsimp only
  rw [crossStarts_eq hg, List.map_map, List.map_map]
  refine ⟨?_, ?_⟩
  · rw [List.getElem?_append_left (by simpa using hj), List.getElem?_map, List.getElem?_range hj]
    simp only [Option.map_some, Function.comp_apply, teamAt_natCast]
  · rw [List.getElem?_append_right (by simp), List.length_map, List.length_range,
      Nat.add_sub_cancel_left, List.getElem?_map, List.getElem?_range hj]
    simp only [Option.map_some, Function.comp_apply, teamAt_natCast]

theorem length_crossPairs (winners seconds : List Value) {g : Nat} (hg : g % 2 = 0) :
    (crossPairs winners seconds g).length = g := by
  unfold crossPairs
  dsimp only
  simp only [crossStarts_eq hg, List.length_append, List.length_map, List.length_range]
  omega

end Step

section Seed

variable {tables : List (List Standing)} {b₀ : Bracket} {first : Round}

/-- When the qualifiers are crossed: an even number of groups, at least two, two qualifiers
from full groups of two or more, and no bye in the first round. -/
def Crosses (tables : List (List Standing)) (a : Nat) (first : Round) : Prop :=
  2 ≤ tables.length ∧ tables.length % 2 = 0 ∧ a = 2 ∧ (∀ rows ∈ tables, 2 ≤ rows.length) ∧
    first.games.any (·.isBye) = false

theorem crosses_iff (a : Nat) :
    (tables.length ≥ 2 ∧ tables.length % 2 = 0 ∧
        (Value.int a).eqv (.int 2) = true ∧ (tables.all fun x => decide (x.length ≥ 2)) = true ∧
          (!first.games.any fun x => x.isBye) = true) ↔ Crosses tables a first := by
  simp only [Crosses, Value.eqv_int, List.all_eq_true, Bool.not_eq_true', decide_eq_true_eq]
  constructor <;> rintro ⟨h1, h2, h3, h4, h5⟩ <;> exact ⟨h1, h2, by omega, h4, h5⟩

/-- **Seeding without crossing.** Unless the groups are crossed, the qualifiers are placed as
seeds in the seed order: the group winners, then the runners-up, and so on. -/
theorem exec_seedGroups_of_not_crosses (hR : Ranked tables) {a : Nat} (ha : 1 ≤ a)
    (hfirst : b₀.rounds.head? = some first) (hc : ¬Crosses tables a first) :
    Step.exec (Step.seedGroups tables (.int a)) b₀ =
      Step.exec (Step.placeTeams (seedOrder tables a)) b₀ := by
  unfold Step.seedGroups
  rw [Step.exec_bind_of_ok (Step.exec_get _)]
  dsimp only
  rw [hfirst]
  dsimp only
  have hcond : ¬(tables.length ≥ 2 ∧ tables.length % 2 = 0 ∧
      (Value.int a).eqv (.int 2) = true ∧ (tables.all fun x => decide (x.length ≥ 2)) = true ∧
        (!first.games.any fun x => x.isBye) = true) := fun h => hc ((crosses_iff a).1 h)
  rw [Step.mapM_qualifiedRows, Step.exec_bind_of_ok (Step.exec_pure _ _),
    if_pos (by simpa only [Bool.not_eq_true', decide_eq_false_iff_not] using hcond),
    runners_eq hR]
  obtain ⟨ordered, hsort, hmap⟩ := sortWith_runners (a := a) hR
  rw [hsort, Step.exec_bind_of_ok (show Step.exec (Step.operand (.ok ordered)) b₀ =
    (.ok ordered, b₀) from rfl), winners_eq hR ha, hmap, seedOrder_eq ha]

/-- **Crossing the groups.** When the groups are crossed, each first-round match in turn takes
the next crossed pair. -/
theorem exec_seedGroups_of_crosses (hR : Ranked tables) (hfirst : b₀.rounds.head? = some first)
    (hc : Crosses tables 2 first) :
    Step.exec (Step.seedGroups tables (.int 2)) b₀ = (.ok (), b₀.crossed first.games.length
      (Step.crossPairs (placedIn tables 0) (placedIn tables 1) tables.length)) := by
  unfold Step.seedGroups
  rw [Step.exec_bind_of_ok (Step.exec_get _)]
  dsimp only
  rw [hfirst]
  dsimp only
  have hcond : tables.length ≥ 2 ∧ tables.length % 2 = 0 ∧
      (Value.int 2).eqv (.int 2) = true ∧
        (tables.all fun x => decide (x.length ≥ 2)) = true ∧
          (!first.games.any fun x => x.isBye) = true := (crosses_iff 2).2 hc
  have hrows := Step.mapM_qualifiedRows tables 2
  rw [Nat.cast_ofNat] at hrows
  rw [hrows, Step.exec_bind_of_ok (Step.exec_pure _ _),
    if_neg (by simpa only [Bool.not_eq_true', decide_eq_false_iff_not, not_not] using hcond),
    runners_eq hR, winners_eq hR (by decide), runners_two]
  rw [Step.exec_bind_of_ok (Step.exec_forIn_update _ _ _ _)]
  rfl

end Seed

end TournamentDraw
