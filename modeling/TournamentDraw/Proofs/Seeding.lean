import TournamentDraw.Proofs.Operations
import TournamentDraw.Proofs.Layout
import TournamentDraw.Bracket.Placement

/-!
# Seeding a fresh draw

Placing teams into a freshly generated knockout draw fills the first round in two passes: the bye
matches take one team each, in order, and the remaining teams are paired from both ends of what is
left. This module computes the first round after both passes (`Fresh.game_seatFirst`), shows
that every team then stands exactly once among the first-round sides (`firstSides_seatFirst`),
and concludes that placing distinct teams leaves the draw routed, whether or not they fit
(`routed_placeTeams`).
-/

namespace TournamentDraw

namespace Bracket

variable {α : Type} (pos : α → Pos) (f : α → Match → Match)

theorem positions_foldl_modifyAt (l : List α) (b : Bracket) :
    (l.foldl (fun b x => b.modifyAt (pos x) (f x)) b).positions = b.positions := by
  induction l generalizing b with
  | nil => rfl
  | cons x l ih => rw [List.foldl_cons, ih, positions_modifyAt]

/-- The match at a place after changes made in turn: the changes made there, in turn. -/
theorem game_foldl_modifyAt (l : List α) (b : Bracket) (hl : ∀ x ∈ l, pos x ∈ b.positions)
    (q : Pos) :
    (l.foldl (fun b x => b.modifyAt (pos x) (f x)) b).game q =
      (l.filter (pos · = q)).foldl (fun m x => f x m) (b.game q) := by
  induction l generalizing b with
  | nil => rfl
  | cons x l ih =>
    rw [List.foldl_cons, ih _ (fun y hy => by rw [positions_modifyAt]; exact hl y (by simp [hy])),
      game_modifyAt _ _ _ _ (hl x (by simp))]
    by_cases hx : pos x = q
    · simp [hx]
    · simp [hx, Ne.symm hx]

theorem skeleton_foldl_modifyAt (hf : ∀ x, Match.KeepsLinks (f x)) (l : List α) (b : Bracket) :
    (l.foldl (fun b x => b.modifyAt (pos x) (f x)) b).skeleton = b.skeleton := by
  induction l generalizing b with
  | nil => rfl
  | cons x l ih => rw [List.foldl_cons, ih, skeleton_modifyAt (hf x)]

theorem wired_foldl_modifyAt (hf : ∀ x, Match.KeepsLinks (f x)) (l : List α) {b : Bracket}
    (hw : b.Wired) : (l.foldl (fun b x => b.modifyAt (pos x) (f x)) b).Wired := by
  induction l generalizing b with
  | nil => exact hw
  | cons x l ih => exact ih (hw.modifyAt (hf x))

end Bracket

/-- The places of a list whose items pass a test exactly up to a bound. -/
theorem map_snd_filter_zipIdx {β : Type} (p : β → Bool) (c : Nat) :
    ∀ (l : List β) (k : Nat), (∀ i (hi : i < l.length), p l[i] = decide (k + i < c)) →
      ((l.zipIdx k).filter (fun x => p x.1)).map (·.2) = (List.range' k l.length).filter (· < c) ∧
      ((l.zipIdx k).filter (fun x => !p x.1)).map (·.2) =
        (List.range' k l.length).filter (fun i => !decide (i < c))
  | [], _, _ => ⟨rfl, rfl⟩
  | a :: l, k, h => by
    have ha : p a = decide (k < c) := by
      have := h 0 (by simp)
      rwa [List.getElem_cons_zero, Nat.add_zero] at this
    have hl : ∀ i (hi : i < l.length), p l[i] = decide (k + 1 + i < c) := fun i hi => by
      have := h (i + 1) (by simp; omega)
      rwa [List.getElem_cons_succ, ← Nat.add_assoc, Nat.add_right_comm] at this
    obtain ⟨ih₁, ih₂⟩ := map_snd_filter_zipIdx p c l (k + 1) hl
    simp only [List.zipIdx_cons, List.filter_cons, ha, List.length_cons, List.range'_succ]
    by_cases hk : k < c <;> simp [hk, ih₁, ih₂]

theorem filter_range'_lt (c w : Nat) :
    (List.range' 0 w).filter (· < c) = List.range (min c w) ∧
      (List.range' 0 w).filter (fun i => !decide (i < c)) =
        List.range' (min c w) (w - min c w) := by
  have hsplit : List.range' 0 w = List.range' 0 (min c w) ++ List.range' (min c w) (w - min c w) := by
    have := List.range'_append_1 (s := 0) (m := min c w) (n := w - min c w)
    rw [Nat.zero_add, Nat.add_sub_cancel' (Nat.min_le_right c w)] at this
    exact this.symm
  rw [hsplit, List.filter_append, List.filter_append]
  have hlo : ∀ i ∈ List.range' 0 (min c w), i < c := fun i hi => by
    rw [List.mem_range'_1] at hi
    omega
  have hhi : ∀ i ∈ List.range' (min c w) (w - min c w), ¬ i < c := fun i hi => by
    rw [List.mem_range'_1] at hi
    omega
  constructor
  · rw [List.filter_eq_self.2 (by simpa using hlo), List.filter_eq_nil_iff.2 (by simpa using hhi),
      List.append_nil, List.range_eq_range']
  · rw [List.filter_eq_nil_iff.2 (by simpa using hlo), List.filter_eq_self.2 (by simpa using hhi),
      List.nil_append]

/-- Numbers from `s` paired with the items of a list: the pair of number `i`, if any. -/
theorem filter_zip_range' {β : Type} (i : Nat) :
    ∀ (s m : Nat) (l : List β), ((List.range' s m).zip l).filter (fun x => decide (x.1 = i)) =
      if h : s ≤ i ∧ i < s + min m l.length then [(i, l[i - s])] else []
  | s, 0, l => by simp
  | s, m + 1, [] => by simp
  | s, m + 1, a :: l => by
    rw [List.range'_succ, List.zip_cons_cons, List.filter_cons, filter_zip_range' i (s + 1) m l]
    by_cases hs : s = i
    · subst hs
      simp
    · have hne : ¬(s + 1 ≤ i ∧ i < s + 1 + min m l.length) ↔ ¬(s ≤ i ∧ i < s + min (m + 1) (l.length + 1)) := by
        constructor <;> intro h h' <;> apply h <;> omega
      by_cases hin : s ≤ i ∧ i < s + min (m + 1) (l.length + 1)
      · have hin' : s + 1 ≤ i ∧ i < s + 1 + min m l.length := by omega
        simp only [hs, decide_false, Bool.false_eq_true, if_false, List.length_cons, dif_pos hin,
          dif_pos hin']
        congr 2
        have hi : i - s = (i - (s + 1)) + 1 := by omega
        simp only [hi, List.getElem_cons_succ]
      · simp only [hs, decide_false, Bool.false_eq_true, if_false, List.length_cons, dif_neg hin,
          dif_neg (hne.2 hin)]

/-- The numbers from `s`, each with its position counted from `k`: the pair of number `i`, if
any. -/
theorem filter_zipIdx_range' (i : Nat) :
    ∀ (s m k : Nat), ((List.range' s m).zipIdx k).filter (fun x => decide (x.1 = i)) =
      if s ≤ i ∧ i < s + m then [(i, k + (i - s))] else []
  | s, 0, k => by simp
  | s, m + 1, k => by
    rw [List.range'_succ, List.zipIdx_cons, List.filter_cons, filter_zipIdx_range' i (s + 1) m (k + 1)]
    by_cases hs : s = i
    · subst hs
      simp
    · by_cases hin : s ≤ i ∧ i < s + (m + 1)
      · rw [if_pos (show s + 1 ≤ i ∧ i < s + 1 + m by omega), if_pos hin]
        simp only [hs, decide_false, Bool.false_eq_true, if_false]
        congr 2
        omega
      · rw [if_neg (show ¬(s + 1 ≤ i ∧ i < s + 1 + m) by omega), if_neg hin]
        simp [hs]

theorem filter_finset_sum {ι β : Type} (p : β → Prop) [DecidablePred p] (s : Finset ι)
    (f : ι → Multiset β) : (∑ i ∈ s, f i).filter p = ∑ i ∈ s, (f i).filter p := by
  classical
  induction s using Finset.induction_on with
  | empty => simp
  | insert a s ha ih => rw [Finset.sum_insert ha, Finset.sum_insert ha, Multiset.filter_add, ih]

/-- The items of a list from place `s` on, `m` of them, as a multiset. -/
theorem sum_range_getElem? {β : Type} (l : List β) (s : Nat) :
    ∀ m, ∑ k ∈ Finset.range m, (↑(l[s + k]?.toList) : Multiset β) = ↑((l.drop s).take m)
  | 0 => by simp
  | m + 1 => by
    rw [Finset.sum_range_succ, sum_range_getElem? l s m, List.take_add_one, List.getElem?_drop,
      ← Multiset.coe_add]

theorem Step.teamAt_natCast {l : List Value} (k : Nat) : Step.teamAt l k = l[k]?.getD .null := by
  simp [Step.teamAt]

/-- The match at index `i` of the first round once the teams are seated: the first `byes`
matches take the top seeds on their first side, match `byes + k` takes seed `byes + k` of the
rest against the seed as far from the end. -/
def Match.seated (teams : List Value) (byes i : Nat) (m : Match) : Match :=
  if i < byes then
    (if h : i < teams.length then { m with team1 := teams[i] } else m)
  else
    { m with team1 := Step.teamAt (teams.drop byes) (i - byes : Nat),
             team2 := if ((teams.drop byes).length : Int) - 1 - (i - byes : Nat) ≤ (i - byes : Nat)
               then .null
               else Step.teamAt (teams.drop byes)
                 (((teams.drop byes).length : Int) - 1 - (i - byes : Nat)) }

theorem Step.teamAt_mem (l : List Value) (i : Int) : Step.teamAt l i = .null ∨ Step.teamAt l i ∈ l := by
  unfold Step.teamAt
  split
  · exact .inl rfl
  · cases h : l[i.toNat]? with
    | none => exact .inl rfl
    | some v => exact .inr (List.mem_of_getElem? h)

namespace Match

variable {teams : List Value} {byes i : Nat}

theorem seated_result (m : Match) :
    (m.seated teams byes i).winner = m.winner ∧ (m.seated teams byes i).loser = m.loser ∧
      (m.seated teams byes i).status = m.status := by
  unfold seated
  split
  · split <;> exact ⟨rfl, rfl, rfl⟩
  · exact ⟨rfl, rfl, rfl⟩

/-- A seated match holds teams of the list, or what it held. -/
theorem seated_teams (P : Value → Prop) (hteams : ∀ v ∈ teams, P v) (hnull : P .null) (m : Match)
    (h1 : P m.team1) (h2 : P m.team2) :
    P (m.seated teams byes i).team1 ∧ P (m.seated teams byes i).team2 := by
  have hat : ∀ j, P (Step.teamAt (teams.drop byes) j) := fun j => by
    rcases Step.teamAt_mem (teams.drop byes) j with h | h
    · rw [h]
      exact hnull
    · exact hteams _ (List.mem_of_mem_drop h)
  unfold seated
  split
  · split
    · exact ⟨hteams _ (List.getElem_mem _), h2⟩
    · exact ⟨h1, h2⟩
  · dsimp only
    refine ⟨hat _, ?_⟩
    split
    · exact hnull
    · exact hat _

end Match

namespace Bracket

/-- The matches of the first round, as placement reads them. -/
def firstGames (b : Bracket) : List Match := (b.rounds.head?.map (·.games)).getD []

/-- The places of the bye matches of the first round. -/
def byePlaces (b : Bracket) : List Nat := ((b.firstGames.zipIdx.filter (·.1.isBye)).map (·.2))

/-- The places of the other matches of the first round. -/
def playPlaces (b : Bracket) : List Nat := ((b.firstGames.zipIdx.filter (!·.1.isBye)).map (·.2))

/-- The competition once the teams are seated in the first round, before any bye is decided:
bye matches take the top seeds on their first side, and each other match takes the best and
the worst of the seeds left. -/
def seatFirst (b : Bracket) (teams : List Value) : Bracket :=
  let rest := teams.drop b.byePlaces.length
  b.playPlaces.zipIdx.foldl (fun c x => c.modifyAt ⟨0, x.1⟩ fun m =>
      { m with team1 := Step.teamAt rest x.2,
               team2 := if (rest.length : Int) - 1 - x.2 ≤ x.2 then .null
                 else Step.teamAt rest ((rest.length : Int) - 1 - x.2) })
    ((b.byePlaces.zip teams).foldl (fun c x => c.modifyAt ⟨0, x.1⟩ fun m => { m with team1 := x.2 })
      b)

variable {b c : Bracket}

/-- A place holds a match exactly when its index is within the width of its round. -/
theorem mem_positions_iff_lt {p : Pos} :
    p ∈ b.positions ↔ p.index < (b.roundOf p.round).games.length := by
  rw [mem_positions, matchAt?, roundOf]
  cases b.rounds[p.round]? with
  | none => simp; exact Nat.zero_le _
  | some r => simp

/-- Two draws with the same places have rounds of the same widths. -/
theorem length_roundOf_of_positions (h : c.positions = b.positions) (j : Nat) :
    (c.roundOf j).games.length = (b.roundOf j).games.length := by
  have hiff : ∀ i, i < (c.roundOf j).games.length ↔ i < (b.roundOf j).games.length := fun i => by
    have := congrArg ((⟨j, i⟩ : Pos) ∈ ·) h
    simpa only [mem_positions_iff_lt, eq_iff_iff] using this
  rcases Nat.lt_trichotomy (c.roundOf j).games.length (b.roundOf j).games.length with h' | h' | h'
  · exact absurd ((hiff _).2 h') (lt_irrefl _)
  · exact h'
  · exact absurd ((hiff _).1 h') (lt_irrefl _)

/-- The sides of the first round, match by match. -/
theorem firstSides_eq_sum_range (b : Bracket) :
    b.firstSides = ∑ i ∈ Finset.range (b.roundOf 0).games.length, (b.game ⟨0, i⟩).sides := by
  have hset : b.positions.filter (·.round = 0) =
      (Finset.range (b.roundOf 0).games.length).map
        ⟨fun i => (⟨0, i⟩ : Pos), fun i j h => by simpa using h⟩ := by
    ext ⟨r, i⟩
    simp only [Finset.mem_filter, Finset.mem_map, Finset.mem_range]
    constructor
    · rintro ⟨hq, rfl⟩
      exact ⟨i, mem_positions_iff_lt.1 hq, rfl⟩
    · rintro ⟨i', hi', h⟩
      cases h
      exact ⟨mem_positions_iff_lt.2 hi', rfl⟩
  rw [firstSides, hset, Finset.sum_map]
  rfl

end Bracket

namespace Bracket.Fresh

variable {b : Bracket} {n w : Nat}


theorem length_firstGames (hF : b.Fresh n w) : (firstGames b).length = w := by
  have h := hF.first
  simp only [firstGames, List.head?_eq_getElem?]
  cases hr : b.rounds[0]? <;> simp_all

theorem getElem?_firstGames (hF : b.Fresh n w) {i : Nat} (hi : i < w) :
    (firstGames b)[i]? = some (b.game ⟨0, i⟩) := by
  have hl := hF.length_firstGames
  simp only [firstGames, List.head?_eq_getElem?] at hl ⊢
  cases hr : b.rounds[0]? with
  | none => simp [hr] at hl; omega
  | some r =>
    simp only [hr, Option.map_some, Option.getD_some] at hl ⊢
    simp [game, matchAt?, hr, List.getElem?_eq_getElem (show i < r.games.length by omega)]

theorem getElem_firstGames (hF : b.Fresh n w) {i : Nat} (hi : i < (firstGames b).length) :
    (firstGames b)[i] = b.game ⟨0, i⟩ :=
  (List.getElem?_eq_some_iff.1 (hF.getElem?_firstGames (hF.length_firstGames ▸ hi))).2

/-- A fresh first round is as wide as it is drawn for. -/
theorem length_roundOf_zero (hF : b.Fresh n w) : (b.roundOf 0).games.length = w := by
  have h := hF.first
  cases hr : b.rounds[0]? with
  | none => simp [hr] at h
  | some r => simpa [roundOf, hr] using h

theorem mem_first (hF : b.Fresh n w) {i : Nat} (hi : i < w) : (⟨0, i⟩ : Pos) ∈ b.positions :=
  mem_positions_iff_lt.2 (hF.length_roundOf_zero.symm ▸ hi)

theorem isBye_first (hF : b.Fresh n w) {i : Nat} (hi : i < w) :
    (b.game ⟨0, i⟩).isBye = decide (i < 2 * w - n) := by
  obtain ⟨-, h2, ha, -⟩ := hF.blank _ (hF.mem_first hi)
  simp only [true_and] at h2 ha
  by_cases hb : i < 2 * w - n
  · simp [Match.isBye, Match.byeValue, ha, hb, Value.orElse, Value.truthy]
  · simp [Match.isBye, Match.byeValue, ha, h2, hb, Value.orElse, Value.truthy, Value.eqv,
      Value.numberCmp?, Value.asExtended?]

/-- The bye matches of the first round are its first `2 * w - n`, as far as there are. -/
theorem byes_eq (hF : b.Fresh n w) :
    (((firstGames b).zipIdx.filter (·.1.isBye)).map (·.2)) = List.range (min (2 * w - n) w) ∧
      (((firstGames b).zipIdx.filter (!·.1.isBye)).map (·.2)) =
        List.range' (min (2 * w - n) w) (w - min (2 * w - n) w) := by
  obtain ⟨h₁, h₂⟩ := map_snd_filter_zipIdx Match.isBye (2 * w - n) (firstGames b) 0
    (fun i hi => by
      rw [hF.getElem_firstGames hi, Nat.zero_add, hF.isBye_first (hF.length_firstGames ▸ hi)])
  rw [hF.length_firstGames] at h₁ h₂
  exact ⟨h₁.trans (filter_range'_lt _ _).1, h₂.trans (filter_range'_lt _ _).2⟩

theorem byePlaces_eq (hF : b.Fresh n w) : b.byePlaces = List.range (min (2 * w - n) w) :=
  hF.byes_eq.1

theorem playPlaces_eq (hF : b.Fresh n w) :
    b.playPlaces = List.range' (min (2 * w - n) w) (w - min (2 * w - n) w) :=
  hF.byes_eq.2

/-- Seating the teams changes only the first round, each of its matches as `Match.seated`
says. -/
theorem game_seatFirst (hF : b.Fresh n w) (teams : List Value) (q : Pos) :
    (b.seatFirst teams).game q =
      if q.round = 0 ∧ q.index < w then (b.game q).seated teams (min (2 * w - n) w) q.index
      else b.game q := by
  have hB : min (2 * w - n) w ≤ w := Nat.min_le_right _ _
  have hmem1 : ∀ x ∈ b.byePlaces.zip teams, (⟨0, x.1⟩ : Pos) ∈ b.positions := fun x hx => by
    have := (List.of_mem_zip hx).1
    rw [hF.byePlaces_eq, List.mem_range] at this
    exact hF.mem_first (by omega)
  have hmem2 : ∀ x ∈ b.playPlaces.zipIdx, (⟨0, x.1⟩ : Pos) ∈ b.positions := fun x hx => by
    have : x.1 ∈ b.playPlaces := by
      rw [← List.zipIdx_map_fst 0 b.playPlaces]
      exact List.mem_map_of_mem hx
    rw [hF.playPlaces_eq, List.mem_range'_1] at this
    exact hF.mem_first (by omega)
  unfold seatFirst
  dsimp only
  rw [game_foldl_modifyAt _ _ _ _ (fun x hx => by rw [positions_foldl_modifyAt]; exact hmem2 x hx),
    game_foldl_modifyAt _ _ _ _ hmem1]
  obtain ⟨r, i⟩ := q
  by_cases hr : r = 0
  · subst hr
    -- only the pairs of place `i` change the match there
    have hp : ∀ {β : Type} (l : List (Nat × β)),
        l.filter (fun x => decide ((⟨0, x.1⟩ : Pos) = ⟨0, i⟩)) = l.filter (fun x => decide (x.1 = i)) :=
      fun l => List.filter_congr (fun x _ => by simp)
    rw [hp, hp, hF.byePlaces_eq, hF.playPlaces_eq, List.range_eq_range', filter_zip_range',
      filter_zipIdx_range']
    simp only [true_and]
    by_cases hi : i < w
    · rw [if_pos hi]
      unfold Match.seated
      by_cases hib : i < min (2 * w - n) w
      · rw [if_neg (by omega), if_pos hib]
        by_cases hit : i < teams.length
        · rw [dif_pos (by omega), dif_pos hit]
          simp
        · rw [dif_neg (by omega), dif_neg hit]
          rfl
      · rw [if_pos (by omega), if_neg hib, dif_neg (by omega)]
        simp
    · rw [if_neg hi, if_neg (by omega), dif_neg (by omega)]
      rfl
  · have hnil : ∀ {β : Type} (l : List (Nat × β)),
        l.filter (fun x => decide ((⟨0, x.1⟩ : Pos) = ⟨r, i⟩)) = [] :=
      fun l => List.filter_eq_nil_iff.2 (fun x _ => by simp [Ne.symm hr])
    rw [hnil, hnil, if_neg (by simp [hr])]
    rfl

theorem lt_of_mem_first (hF : b.Fresh n w) {i : Nat} (hi : (⟨0, i⟩ : Pos) ∈ b.positions) :
    i < w :=
  hF.length_roundOf_zero ▸ mem_positions_iff_lt.1 hi

/-- The first round of a draw laid out like a fresh one is its `w` matches. -/
theorem firstSides_eq_sum (hF : b.Fresh n w) {c : Bracket} (hpos : c.positions = b.positions) :
    c.firstSides = ∑ i ∈ Finset.range w, (c.game ⟨0, i⟩).sides := by
  rw [firstSides_eq_sum_range, length_roundOf_of_positions hpos, hF.length_roundOf_zero]

section Seat

variable {teams : List Value}

/-- The first round leaves room for every team: with no more than `2 * w` teams, either every
team has a bye match or the teams left after the byes fill the other matches two by two. -/
theorem room_split (hn : n ≤ 2 * w) :
    w - min (2 * w - n) w = 0 ∨ n = min (2 * w - n) w + 2 * (w - min (2 * w - n) w) := by
  omega

theorem filter_sides_seated_bye (hF : b.Fresh n w)
    (hteams : ∀ v ∈ teams, v.isNull = false ∧ v.eqv (.str byeTeam) = false) {i : Nat}
    (hi : i < min (2 * w - n) w) :
    (((b.game ⟨0, i⟩).seated teams (min (2 * w - n) w) i).sides.filter
      fun v => !v.eqv (.str byeTeam)) = ↑(teams[i]?.toList) := by
  obtain ⟨h1, h2, -⟩ := hF.blank _ (hF.mem_first (show i < w by omega))
  dsimp only at h2
  rw [if_pos ⟨rfl, by omega⟩] at h2
  have hbye : (Value.str byeTeam).eqv (.str byeTeam) = true := by simp [Value.eqv]
  have hbn : (Value.str byeTeam).isNull = false := rfl
  unfold Match.seated
  rw [if_pos hi]
  by_cases ht : i < teams.length
  · have := hteams _ (List.getElem_mem ht)
    rw [dif_pos ht, List.getElem?_eq_getElem ht]
    simp [Match.sides, h2, this.1, this.2, hbye, hbn, Multiset.filter_singleton]
  · rw [dif_neg ht, List.getElem?_eq_none (by omega)]
    simp [Match.sides, h1, h2, hbye, hbn]

theorem filter_sides_seated_play (hF : b.Fresh n w)
    (hteams : ∀ v ∈ teams, v.isNull = false ∧ v.eqv (.str byeTeam) = false)
    (hlen : teams.length = n) (hn : n = min (2 * w - n) w + 2 * (w - min (2 * w - n) w))
    {k : Nat} (hk : k < w - min (2 * w - n) w) :
    (((b.game ⟨0, min (2 * w - n) w + k⟩).seated teams (min (2 * w - n) w)
      (min (2 * w - n) w + k)).sides.filter fun v => !v.eqv (.str byeTeam)) =
      ↑(teams[min (2 * w - n) w + k]?.toList) + ↑(teams[n - 1 - k]?.toList) := by
  obtain ⟨h1, h2, -⟩ := hF.blank _ (hF.mem_first (show min (2 * w - n) w + k < w by omega))
  dsimp only at h2
  rw [if_neg (by omega)] at h2
  unfold Match.seated
  rw [if_neg (by omega), Nat.add_sub_cancel_left]
  -- the teams left after the byes are twice the other matches: match `k` takes the `k`-th of
  -- them and the `k`-th from the end
  have hL : (teams.drop (min (2 * w - n) w)).length = 2 * (w - min (2 * w - n) w) := by
    rw [List.length_drop, hlen]
    omega
  have hj : ((teams.drop (min (2 * w - n) w)).length : Int) - 1 - (k : Nat) =
      ((2 * (w - min (2 * w - n) w) - 1 - k : Nat) : Int) := by
    rw [hL]
    omega
  have ht1 : min (2 * w - n) w + k < teams.length := by omega
  have ht2 : n - 1 - k < teams.length := by omega
  have hv1 := hteams _ (List.getElem_mem ht1)
  have hv2 := hteams _ (List.getElem_mem ht2)
  rw [hj, if_neg (by omega), Step.teamAt_natCast, Step.teamAt_natCast, List.getElem?_drop,
    List.getElem?_drop, show min (2 * w - n) w + (2 * (w - min (2 * w - n) w) - 1 - k) = n - 1 - k by
      omega, List.getElem?_eq_getElem ht1, List.getElem?_eq_getElem ht2]
  simp [Match.sides, hv1.1, hv2.1, hv1.2, hv2.2, Multiset.filter_singleton]

theorem positions_seatFirst (teams : List Value) : (b.seatFirst teams).positions = b.positions := by
  simp only [seatFirst, positions_foldl_modifyAt]

/-- **Placement seats every team once**: apart from the bye, the first round holds exactly the
teams placed, when there is room for them. -/
theorem firstSides_seatFirst (hF : b.Fresh n w)
    (hteams : ∀ v ∈ teams, v.isNull = false ∧ v.eqv (.str byeTeam) = false)
    (hlen : teams.length = n) (hn : n ≤ 2 * w) :
    ((b.seatFirst teams).firstSides.filter fun v => !v.eqv (.str byeTeam)) = ↑teams := by
  have hw : w = min (2 * w - n) w + (w - min (2 * w - n) w) := by omega
  rw [hF.firstSides_eq_sum (positions_seatFirst teams), filter_finset_sum]
  conv_lhs => rw [hw, Finset.sum_range_add]
  have hbyes : ∑ i ∈ Finset.range (min (2 * w - n) w),
      ((b.seatFirst teams).game ⟨0, i⟩).sides.filter (fun v => !v.eqv (.str byeTeam)) =
      ↑(teams.take (min (2 * w - n) w)) := by
    have hi : ∀ i ∈ Finset.range (min (2 * w - n) w),
        ((b.seatFirst teams).game ⟨0, i⟩).sides.filter (fun v => !v.eqv (.str byeTeam)) =
          ↑(teams[0 + i]?.toList) := fun i hi => by
      rw [Finset.mem_range] at hi
      rw [hF.game_seatFirst, if_pos ⟨rfl, by dsimp only; omega⟩,
        hF.filter_sides_seated_bye hteams hi, Nat.zero_add]
    rw [Finset.sum_congr rfl hi, sum_range_getElem?, List.drop_zero]
  rw [hbyes]
  rcases room_split hn with hP | hsplit
  · rw [hP, Finset.sum_range_zero, add_zero, List.take_of_length_le (by omega)]
  · have hplay : ∑ k ∈ Finset.range (w - min (2 * w - n) w),
        ((b.seatFirst teams).game ⟨0, min (2 * w - n) w + k⟩).sides.filter
          (fun v => !v.eqv (.str byeTeam)) =
        ↑((teams.drop (min (2 * w - n) w)).take (w - min (2 * w - n) w)) +
          ↑((teams.drop (min (2 * w - n) w + (w - min (2 * w - n) w))).take
            (w - min (2 * w - n) w)) := by
      have hk : ∀ k ∈ Finset.range (w - min (2 * w - n) w),
          ((b.seatFirst teams).game ⟨0, min (2 * w - n) w + k⟩).sides.filter
            (fun v => !v.eqv (.str byeTeam)) =
            ↑(teams[min (2 * w - n) w + k]?.toList) + ↑(teams[n - 1 - k]?.toList) := fun k hk => by
        rw [Finset.mem_range] at hk
        rw [hF.game_seatFirst, if_pos ⟨rfl, by dsimp only; omega⟩,
          hF.filter_sides_seated_play hteams hlen hsplit hk]
      rw [Finset.sum_congr rfl hk, Finset.sum_add_distrib, sum_range_getElem?]
      congr 1
      -- the second sides run backwards through the last teams
      rw [← sum_range_getElem?]
      symm
      rw [← Finset.sum_range_reflect]
      refine Finset.sum_congr rfl fun k hk => ?_
      rw [Finset.mem_range] at hk
      congr 3
      omega
    rw [hplay, ← add_assoc, Multiset.coe_add, Multiset.coe_add, ← List.take_add,
      List.take_of_length_le (l := List.drop _ _) (by simp; omega), List.take_append_drop]

theorem wired_seatFirst (hF : b.Fresh n w) (teams : List Value) : (b.seatFirst teams).Wired := by
  unfold seatFirst
  dsimp only
  refine wired_foldl_modifyAt _ _ ?_ _ (wired_foldl_modifyAt _ _ ?_ _ hF.wired) <;>
    exact fun _ _ => ⟨rfl, rfl, rfl⟩

theorem skeleton_seatFirst (teams : List Value) : (b.seatFirst teams).skeleton = b.skeleton := by
  unfold seatFirst
  dsimp only
  refine (skeleton_foldl_modifyAt _ _ ?_ _ _).trans (skeleton_foldl_modifyAt _ _ ?_ _ _) <;>
    exact fun _ _ => ⟨rfl, rfl, rfl⟩

/-- A fresh draw has no result anywhere. -/
theorem unplayed (hF : b.Fresh n w) {q : Pos} (hq : q ∈ b.positions) :
    (b.game q).winner = .null ∧ (b.game q).loser = .null ∧ (b.game q).isCompleted = false := by
  obtain ⟨-, -, -, hw, hl, hs⟩ := hF.blank q hq
  simp [hw, hl, hs, Match.isCompleted]

/-- Seating the teams decides nothing: every match keeps the empty result of a fresh draw. -/
theorem unplayed_seatFirst (hF : b.Fresh n w) (teams : List Value) {q : Pos}
    (hq : q ∈ b.positions) :
    ((b.seatFirst teams).game q).winner = .null ∧ ((b.seatFirst teams).game q).loser = .null ∧
      ((b.seatFirst teams).game q).isCompleted = false := by
  obtain ⟨hw, hl, hs⟩ := hF.unplayed hq
  rw [hF.game_seatFirst]
  split
  · obtain ⟨hw', hl', hs'⟩ := @Match.seated_result teams (min (2 * w - n) w) q.index (b.game q)
    refine ⟨hw'.trans hw, hl'.trans hl, ?_⟩
    unfold Match.isCompleted at hs ⊢
    rw [hs']
    exact hs
  · exact ⟨hw, hl, hs⟩

/-- Seated teams keep the flow of the draw: nothing is played, and every later round is empty,
however many teams are seated. -/
theorem flowing_seatFirst (hF : b.Fresh n w) {ids : List String} (hids : ∀ s ∈ ids, s ≠ "") :
    Flowing (b.seatFirst (ids.map .str)) [] := by
  have hpos := positions_seatFirst (b := b) (ids.map .str)
  have hres := fun q (hq : q ∈ b.positions) => hF.unplayed_seatFirst (ids.map .str) hq
  constructor
  · exact hF.wired_seatFirst _
  · intro q hq
    rw [hpos] at hq
    obtain ⟨h1, h2, -⟩ := hF.blank q hq
    have hbye : (Value.str byeTeam).Textual := .inr ⟨byeTeam, rfl, by decide⟩
    have h2' : (b.game q).team2.Textual := by
      rw [h2]
      split
      · exact hbye
      · exact .inl rfl
    rw [hF.game_seatFirst]
    split
    · exact Match.seated_teams Value.Textual
        (fun v hv => by
          obtain ⟨s, hs, rfl⟩ := List.mem_map.1 hv
          exact .inr ⟨s, rfl, hids s hs⟩)
        (.inl rfl) _ (by rw [h1]; exact .inl rfl) h2'
    · exact ⟨by rw [h1]; exact .inl rfl, h2'⟩
  · intro p hp hc
    rw [hpos] at hp
    rw [(hres p hp).2.2] at hc
    cases hc
  · intro p hp _
    rw [hpos] at hp
    exact ⟨(hres p hp).1, (hres p hp).2.1⟩
  · intro q hq hr
    rw [hpos] at hq
    have hin : (b.seatFirst (ids.map .str)).inflow q = 0 := by
      refine Finset.sum_eq_zero fun p hp => ?_
      rw [hpos] at hp
      rw [sent_of_null ⟨(hres p hp).1, (hres p hp).2.1⟩,
        sent_of_null ⟨(hres p hp).1, (hres p hp).2.1⟩, add_zero]
    obtain ⟨h1, h2, -⟩ := hF.blank q hq
    rw [hF.game_seatFirst, if_neg (by omega), hin, owed_nil, add_zero]
    rw [if_neg (by omega)] at h2
    simp [Match.sides, h1, h2]
  · intro p k x hx
    cases hx
  · intro p w hx
    cases hx
  · exact List.nodup_nil

/-- Seated teams keep the routing invariant: nothing is played, and every team stands once in
the first round. -/
theorem routed_seatFirst (hF : b.Fresh n w) {ids : List String} (hnd : ids.Nodup)
    (hids : ∀ s ∈ ids, s ≠ "" ∧ s ≠ byeTeam) (hlen : ids.length = n) (hn : n ≤ 2 * w) :
    Routed (b.seatFirst (ids.map .str)) [] := by
  refine Routed.of_flowing (hF.flowing_seatFirst fun s hs => (hids s hs).1) ?_
  rw [hF.firstSides_seatFirst (fun v hv => by
      obtain ⟨s, hs, rfl⟩ := List.mem_map.1 hv
      simp [Value.isNull, Value.eqv, (hids s hs).2])
    (by rw [List.length_map, hlen]) hn]
  exact Multiset.coe_nodup.2 (hnd.map fun _ _ h => Value.str.inj h)

/-- A fresh draw is routed: nothing is played and no team stands in it. -/
theorem routed (hF : b.Fresh n w) : Routed b [] := by
  have hres := fun q (hq : q ∈ b.positions) => hF.unplayed hq
  -- a fresh match holds the bye at most
  have hsides : ∀ q ∈ b.positions,
      ((b.game q).sides.filter fun v => !v.eqv (.str byeTeam)) = 0 := fun q hq => by
    obtain ⟨h1, h2, -⟩ := hF.blank q hq
    unfold Match.sides
    rw [h1, h2]
    by_cases hb : q.round = 0 ∧ q.index < 2 * w - n <;>
      simp [hb, Value.isNull, Value.eqv, Multiset.filter_singleton]
  constructor
  · exact hF.wired
  · intro q hq
    obtain ⟨h1, h2, -⟩ := hF.blank q hq
    rw [h1, h2]
    refine ⟨.inl rfl, ?_⟩
    split
    · exact .inr ⟨byeTeam, rfl, by decide⟩
    · exact .inl rfl
  · intro p hp hc
    rw [(hres p hp).2.2] at hc
    cases hc
  · intro p hp _
    exact ⟨(hres p hp).1, (hres p hp).2.1⟩
  · intro q hq hr
    have hin : b.inflow q = 0 := Finset.sum_eq_zero fun p hp => by
      rw [sent_of_null ⟨(hres p hp).1, (hres p hp).2.1⟩,
        sent_of_null ⟨(hres p hp).1, (hres p hp).2.1⟩, add_zero]
    obtain ⟨h1, h2, -⟩ := hF.blank q hq
    rw [if_neg (by omega)] at h2
    rw [hin, owed_nil, add_zero]
    simp [Match.sides, h1, h2]
  · intro p k x hx
    cases hx
  · intro p w hx
    cases hx
  · exact List.nodup_nil
  · rw [firstSides, filter_finset_sum, Finset.sum_eq_zero fun q hq => hsides q (Finset.mem_filter.1 hq).1]
    exact Multiset.nodup_zero

/-- The room of the first round: a team for each bye match, two for each other match. -/
theorem room_eq (hF : b.Fresh n w) :
    b.byePlaces.length + 2 * b.playPlaces.length =
      min (2 * w - n) w + 2 * (w - min (2 * w - n) w) := by
  rw [hF.byePlaces_eq, hF.playPlaces_eq, List.length_range, List.length_range']

theorem placeTeams_cond (hF : b.Fresh n w) : (!b.rounds.isEmpty) = true ∧ b.format ≠ .groupsOnly := by
  refine ⟨?_, hF.format_ne⟩
  have := hF.first
  cases h : b.rounds <;> simp_all

/-- More teams than the first round has room for are refused, naming the room and the count,
and nothing changes. -/
theorem exec_placeTeams_of_room_lt (hF : b.Fresh n w) {teams : List Value}
    (hroom : min (2 * w - n) w + 2 * (w - min (2 * w - n) w) < teams.length) :
    Step.exec (Step.placeTeams teams) b =
      (.error (.noRoom (min (2 * w - n) w + 2 * (w - min (2 * w - n) w)) teams.length), b) := by
  unfold Step.placeTeams
  rw [Step.exec_bind_of_ok (Step.exec_get b)]
  dsimp only
  rw [if_pos hF.placeTeams_cond]
  have hgt : teams.length > b.byePlaces.length + 2 * b.playPlaces.length := by
    rw [hF.room_eq]
    exact hroom
  have hroom' := hF.room_eq
  simp only [byePlaces, playPlaces, firstGames] at hgt hroom'
  rw [if_pos hgt, hroom']
  rfl

/-- Teams that fit are seated, and then the byes are resolved. -/
theorem exec_placeTeams_of_le_room (hF : b.Fresh n w) {teams : List Value}
    (hroom : teams.length ≤ min (2 * w - n) w + 2 * (w - min (2 * w - n) w)) {c : Bracket}
    (hc : Step.exec Step.resolveByes (b.seatFirst teams) = (.ok (), c))
    (hfix : c.fixtures = []) : Step.exec (Step.placeTeams teams) b = (.ok (), c) := by
  unfold Step.placeTeams
  rw [Step.exec_bind_of_ok (Step.exec_get b)]
  dsimp only
  rw [if_pos hF.placeTeams_cond]
  have hle : ¬teams.length > b.byePlaces.length + 2 * b.playPlaces.length := by
    rw [hF.room_eq]
    omega
  simp only [byePlaces, playPlaces, firstGames] at hle
  rw [if_neg hle, Step.exec_bind_of_ok (Step.exec_forIn_update _ _ _ _),
    Step.exec_bind_of_ok (Step.exec_forIn_update _ _ _ _)]
  erw [Step.exec_bind_of_ok hc]
  rw [Step.exec_bind_of_ok (Step.exec_get c), hfix]
  rfl

/-- More teams than the first round has room for are refused, and nothing changes. -/
theorem exec_placeTeams_of_gt (hF : b.Fresh n w) {teams : List Value} (hlen : teams.length = n)
    (hn : 2 * w < n) : ∃ e, Step.exec (Step.placeTeams teams) b = (.error e, b) :=
  ⟨_, hF.exec_placeTeams_of_room_lt (by omega)⟩

/-- Teams that fit are seated, and then the byes are resolved. -/
theorem exec_placeTeams_of_le (hF : b.Fresh n w) {teams : List Value} (hlen : teams.length = n)
    (hn : n ≤ 2 * w) {c : Bracket} (hc : Step.exec Step.resolveByes (b.seatFirst teams) = (.ok (), c))
    (hfix : c.fixtures = []) : Step.exec (Step.placeTeams teams) b = (.ok (), c) :=
  hF.exec_placeTeams_of_le_room (by omega) hc hfix

/-- **Placing the teams keeps the routing invariant.** On a fresh draw, placing distinct teams
leaves the draw routed and its links as they were, whether they fit or the placement is refused
for want of room. -/
theorem routed_placeTeams (hF : b.Fresh n w) {ids : List String} (hnd : ids.Nodup)
    (hids : ∀ s ∈ ids, s ≠ "" ∧ s ≠ byeTeam) (hlen : ids.length = n) :
    Routed (Step.exec (Step.placeTeams (ids.map .str)) b).2 [] ∧
      (Step.exec (Step.placeTeams (ids.map .str)) b).2.skeleton = b.skeleton := by
  have hlen' : (ids.map Value.str).length = n := by rw [List.length_map, hlen]
  by_cases hn : n ≤ 2 * w
  · obtain ⟨c, hrun, hR, hS⟩ := Routed.resolveByes (hF.routed_seatFirst hnd hids hlen hn)
    rw [hF.exec_placeTeams_of_le hlen' hn hrun hR.wired.fixtures_eq]
    exact ⟨hR, hS.trans (skeleton_seatFirst _)⟩
  · obtain ⟨e, he⟩ := hF.exec_placeTeams_of_gt hlen' (by omega)
    rw [he]
    exact ⟨hF.routed, rfl⟩

end Seat

end Bracket.Fresh

end TournamentDraw
