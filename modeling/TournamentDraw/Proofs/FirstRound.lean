import TournamentDraw.Proofs.GroupSeeds

/-!
# The first round of a seeded knockout draw

What a knockout draw's first round holds once a list of teams has gone into it
(`FirstRoundOf`): apart from the bye, its sides are exactly the teams, and each match holds
two of them, or one against the bye that has already gone through. Both ways of filling a fresh
draw give such a first round. Placing teams as seeds, then clearing the byes, gives it when the
teams fill between half and all of the first round (`Fresh.firstRoundOf_clearing`). Crossing
pairs of true teams into any first round seats each pair in its match, whatever the match held
(`Bracket.crossed_pairs`, `Bracket.firstSides_crossed`), so crossing them into a fresh draw
without byes gives such a first round too (`Fresh.firstRoundOf_crossed`).
-/

namespace TournamentDraw

namespace Bracket

variable {b b' : Bracket}

theorem game_of_rounds (h : b'.rounds = b.rounds) (p : Pos) : b'.game p = b.game p := by
  simp [game, matchAt?, h]

theorem positions_of_rounds (h : b'.rounds = b.rounds) : b'.positions = b.positions := by
  simp [positions, knockoutPlaces, h]

theorem firstSides_of_rounds (h : b'.rounds = b.rounds) : b'.firstSides = b.firstSides := by
  simp only [firstSides, positions_of_rounds h, game_of_rounds h]

theorem skeleton_of_rounds (h : b'.rounds = b.rounds) : b'.skeleton = b.skeleton := by
  simp [skeleton, h]

end Bracket

/-- The first round of a knockout draw once the teams `Q` have gone into it: apart from the
bye, its sides are the teams, and every match holds two of them, or one against the bye that has
already gone through. -/
structure FirstRoundOf (Q : List Value) (b : Bracket) : Prop where
  placed : b.firstSides.filter (fun v => !v.eqv (.str byeTeam)) = ↑Q
  paired : ∀ i, (⟨0, i⟩ : Pos) ∈ b.positions →
    ((b.game ⟨0, i⟩).team1 ∈ Q ∧ (b.game ⟨0, i⟩).team2 ∈ Q) ∨
      ((b.game ⟨0, i⟩).team1 ∈ Q ∧ (b.game ⟨0, i⟩).team2 = .str byeTeam ∧
        (b.game ⟨0, i⟩).isCompleted = true ∧ (b.game ⟨0, i⟩).winner = (b.game ⟨0, i⟩).team1)

namespace FirstRoundOf

variable {Q Q' : List Value} {b b' : Bracket}

theorem perm (h : FirstRoundOf Q b) (hQ : Q.Perm Q') : FirstRoundOf Q' b where
  placed := h.placed.trans (Multiset.coe_eq_coe.2 hQ)
  paired i hi := by
    simp only [← hQ.mem_iff]
    exact h.paired i hi

/-- The first round is read off the rounds alone. -/
theorem of_rounds (h : FirstRoundOf Q b) (hr : b'.rounds = b.rounds) : FirstRoundOf Q b' where
  placed := by rw [Bracket.firstSides_of_rounds hr]; exact h.placed
  paired i hi := by
    simp only [Bracket.game_of_rounds hr]
    exact h.paired i (Bracket.positions_of_rounds hr ▸ hi)

end FirstRoundOf

/-- Match `k` after `B` byes takes the `k`-th seed left and the `k`-th from the end, both
seeds when the teams left fill the `P` matches left. -/
theorem Match.seated_play (m : Match) {teams : List Value} {B P k : Nat}
    (hlen : teams.length = B + 2 * P) (hk : k < P) :
    (m.seated teams B (B + k)).team1 ∈ teams ∧ (m.seated teams B (B + k)).team2 ∈ teams := by
  unfold Match.seated
  rw [if_neg (by omega), Nat.add_sub_cancel_left]
  have hL : (teams.drop B).length = 2 * P := by
    rw [List.length_drop, hlen]
    omega
  have hj : ((teams.drop B).length : Int) - 1 - (k : Nat) = ((2 * P - 1 - k : Nat) : Int) := by
    rw [hL]
    omega
  have hat : ∀ j, j < (teams.drop B).length → Step.teamAt (teams.drop B) j ∈ teams :=
    fun j hj' => by
      rw [Step.teamAt_natCast, List.getElem?_eq_getElem hj', Option.getD_some]
      exact List.mem_of_mem_drop (List.getElem_mem hj')
  dsimp only
  rw [hj, if_neg (by omega)]
  exact ⟨hat k (by omega), hat _ (by omega)⟩

/-! ### Crossing pairs into any first round -/

namespace Bracket

variable {b c : Bracket}

section Crossed

variable {w : Nat} (pairs : List (Value × Value))

theorem positions_crossed : (b.crossed w pairs).positions = b.positions :=
  positions_foldl_modifyAt _ _ _ _

theorem keepsLinks_crossedWith (t : Value × Value) : Match.KeepsLinks (Match.crossedWith t) :=
  fun _ => ⟨rfl, rfl, rfl⟩

theorem mem_positions_of_crossing (hw : w ≤ (b.roundOf 0).games.length) :
    ∀ x ∈ (List.range w).zip pairs, (⟨0, x.1⟩ : Pos) ∈ b.positions := fun x hx => by
  have := List.mem_range.1 (List.of_mem_zip hx).1
  exact mem_positions_iff_lt.2 (by dsimp only; omega)

/-- A match of the first round, within the width crossed, takes its pair. -/
theorem game_crossed_of_lt (hw : w ≤ (b.roundOf 0).games.length) {i : Nat} (hi : i < w)
    (hp : i < pairs.length) :
    (b.crossed w pairs).game ⟨0, i⟩ = (b.game ⟨0, i⟩).crossedWith pairs[i] := by
  rw [Bracket.crossed, game_foldl_modifyAt _ _ _ _ (mem_positions_of_crossing pairs hw)]
  have hfilter : ((List.range w).zip pairs).filter (fun x => decide ((⟨0, x.1⟩ : Pos) = ⟨0, i⟩)) =
      ((List.range' 0 w).zip pairs).filter (fun x => decide (x.1 = i)) := by
    rw [List.range_eq_range']
    exact List.filter_congr fun x _ => by simp
  rw [hfilter, filter_zip_range', dif_pos ⟨Nat.zero_le _, by omega⟩]
  rfl

/-- Crossing leaves the matches beyond the first round as they were. -/
theorem game_crossed_of_round_pos (hw : w ≤ (b.roundOf 0).games.length) {p : Pos}
    (hp : p.round ≠ 0) : (b.crossed w pairs).game p = b.game p := by
  rw [Bracket.crossed, game_foldl_modifyAt _ _ _ _ (mem_positions_of_crossing pairs hw)]
  have hnil : ((List.range w).zip pairs).filter (fun x => decide ((⟨0, x.1⟩ : Pos) = p)) = [] :=
    List.filter_eq_nil_iff.2 fun x _ => by
      rw [decide_eq_true_eq]
      rintro rfl
      exact hp rfl
  rw [hnil]
  rfl
end Crossed

/-- Pairs of a list, two by two: the sum over the pairs is the sum over the places. -/
theorem sum_range_pairs {β : Type} [AddCommMonoid β] (f : Nat → β) :
    ∀ h, ∑ j ∈ Finset.range h, (f (2 * j) + f (2 * j + 1)) = ∑ k ∈ Finset.range (2 * h), f k
  | 0 => rfl
  | h + 1 => by
    rw [Finset.sum_range_succ, sum_range_pairs f h, show 2 * (h + 1) = 2 * h + 1 + 1 by ring,
      Finset.sum_range_succ, Finset.sum_range_succ, add_assoc]

theorem sum_range_singleton_getD (L : List Value) {h : Nat} (hL : L.length = 2 * h) :
    ∑ j ∈ Finset.range h,
      (({(L[2 * j]?).getD .null} : Multiset Value) + {(L[2 * j + 1]?).getD .null}) = ↑L := by
  rw [sum_range_pairs (fun k => ({(L[k]?).getD .null} : Multiset Value))]
  have hk : ∀ k ∈ Finset.range (2 * h),
      ({(L[k]?).getD .null} : Multiset Value) = ↑(L[0 + k]?.toList) := fun k hk => by
    rw [Finset.mem_range] at hk
    rw [Nat.zero_add, List.getElem?_eq_getElem (by omega)]
    rfl
  rw [Finset.sum_congr rfl hk, sum_range_getElem?, List.drop_zero,
    List.take_of_length_le (by omega)]

section Pairs

variable {G : Nat} {W S : List Value}

/-- **The cross pairing seated.** Crossing winners `W` and runners-up `S`, true values as many
of each as the width crossed, into a round at least that wide: match `j` of the first half holds
the winner `2 j` against the runner-up `2 j + 1`, and match `j` of the second half the runner-up
`2 j` against the winner `2 j + 1`, whatever they held before. -/
theorem crossed_pairs (hw : G ≤ (b.roundOf 0).games.length) (hG : G % 2 = 0) (hW : W.length = G)
    (hS : S.length = G) (hv : ∀ v ∈ W ++ S, v.truthy = true) {j : Nat} (hj : j < G / 2) :
    W[2 * j]? = some ((b.crossed G (Step.crossPairs W S G)).game ⟨0, j⟩).team1 ∧
      S[2 * j + 1]? = some ((b.crossed G (Step.crossPairs W S G)).game ⟨0, j⟩).team2 ∧
      S[2 * j]? = some ((b.crossed G (Step.crossPairs W S G)).game ⟨0, G / 2 + j⟩).team1 ∧
      W[2 * j + 1]? = some ((b.crossed G (Step.crossPairs W S G)).game ⟨0, G / 2 + j⟩).team2 := by
  have hlen := Step.length_crossPairs W S hG
  obtain ⟨hp₁, hp₂⟩ := Step.crossPairs_getElem? W S hG hj
  rw [List.getElem?_eq_getElem (by omega), Option.some.injEq] at hp₁ hp₂
  rw [game_crossed_of_lt _ hw (by omega) (by omega), game_crossed_of_lt _ hw (by omega) (by omega),
    hp₁, hp₂]
  have hW' : ∀ k (hk : k < G), W[k]? = some W[k] ∧ W[k].truthy = true := fun k hk =>
    ⟨List.getElem?_eq_getElem _, hv _ (List.mem_append_left _ (List.getElem_mem _))⟩
  have hS' : ∀ k (hk : k < G), S[k]? = some S[k] ∧ S[k].truthy = true := fun k hk =>
    ⟨List.getElem?_eq_getElem _, hv _ (List.mem_append_right _ (List.getElem_mem _))⟩
  obtain ⟨h₁, t₁⟩ := hW' (2 * j) (by omega)
  obtain ⟨h₂, t₂⟩ := hS' (2 * j + 1) (by omega)
  obtain ⟨h₃, t₃⟩ := hS' (2 * j) (by omega)
  obtain ⟨h₄, t₄⟩ := hW' (2 * j + 1) (by omega)
  simp only [Match.crossedWith, h₁, h₂, h₃, h₄, Option.getD_some, t₁, t₂, t₃, t₄, if_true,
    and_self]

/-- Crossed pairs of true values fill the first round: its sides are the winners and the
runners-up, each once. -/
theorem firstSides_crossed (hw : (b.roundOf 0).games.length = G) (hG : G % 2 = 0)
    (hW : W.length = G) (hS : S.length = G) (hv : ∀ v ∈ W ++ S, v.truthy = true) :
    (b.crossed G (Step.crossPairs W S G)).firstSides = ↑(W ++ S) := by
  set c := b.crossed G (Step.crossPairs W S G)
  have hwidth : (c.roundOf 0).games.length = G :=
    (length_roundOf_of_positions (positions_crossed _) 0).trans hw
  have hsides : ∀ {m : Match}, m.team1.truthy = true → m.team2.truthy = true →
      m.sides = {m.team1} + {m.team2} := fun h1 h2 => by
    simp [Match.sides, Value.isNull_of_truthy h1, Value.isNull_of_truthy h2]
  have htruthy : ∀ {v : Value} {L : List Value} {k : Nat}, L[k]? = some v → L ⊆ W ++ S →
      v.truthy = true := fun h hL => hv _ (hL (List.mem_of_getElem? h))
  have hgetD : ∀ {v : Value} {L : List Value} {k : Nat}, L[k]? = some v →
      (L[k]?).getD .null = v := fun h => by rw [h]; rfl
  -- each half of the first round holds one of every two winners and runners-up
  have hhalf : ∀ F : Nat → Multiset Value, ∑ i ∈ Finset.range G, F i =
      ∑ j ∈ Finset.range (G / 2), F j + ∑ j ∈ Finset.range (G / 2), F (G / 2 + j) :=
    fun F => by rw [← Finset.sum_range_add, show G / 2 + G / 2 = G by omega]
  have hfirst : ∀ j ∈ Finset.range (G / 2), (c.game ⟨0, j⟩).sides =
      {(W[2 * j]?).getD .null} + {(S[2 * j + 1]?).getD .null} := fun j hj => by
    rw [Finset.mem_range] at hj
    obtain ⟨h1, h2, -, -⟩ := crossed_pairs hw.ge hG hW hS hv hj
    rw [hsides (htruthy h1 (List.subset_append_left W S))
      (htruthy h2 (List.subset_append_right W S)), hgetD h1, hgetD h2]
  have hsecond : ∀ j ∈ Finset.range (G / 2), (c.game ⟨0, G / 2 + j⟩).sides =
      {(S[2 * j]?).getD .null} + {(W[2 * j + 1]?).getD .null} := fun j hj => by
    rw [Finset.mem_range] at hj
    obtain ⟨-, -, h1, h2⟩ := crossed_pairs hw.ge hG hW hS hv hj
    rw [hsides (htruthy h1 (List.subset_append_right W S))
      (htruthy h2 (List.subset_append_left W S)), hgetD h1, hgetD h2]
  rw [firstSides_eq_sum_range, hwidth, hhalf, Finset.sum_congr rfl hfirst,
    Finset.sum_congr rfl hsecond, ← Finset.sum_add_distrib]
  have hsplit : ∀ j ∈ Finset.range (G / 2),
      ({(W[2 * j]?).getD .null} + {(S[2 * j + 1]?).getD .null} +
        ({(S[2 * j]?).getD .null} + {(W[2 * j + 1]?).getD .null}) : Multiset Value) =
      ({(W[2 * j]?).getD .null} + {(W[2 * j + 1]?).getD .null}) +
        ({(S[2 * j]?).getD .null} + {(S[2 * j + 1]?).getD .null}) := fun _ _ => by abel
  rw [Finset.sum_congr rfl hsplit, Finset.sum_add_distrib,
    sum_range_singleton_getD W (by omega), sum_range_singleton_getD S (by omega),
    Multiset.coe_add]

end Pairs

end Bracket

namespace Bracket.Fresh

variable {b : Bracket} {n w : Nat}

/-- A fresh first round has a bye exactly when it has room for more teams than it is drawn
for. -/
theorem any_isBye (hF : b.Fresh n w) {first : Round} (hfirst : b.rounds.head? = some first) :
    first.games.any (·.isBye) = decide (n < 2 * w) := by
  have hgames : first.games = b.firstGames := by simp [firstGames, hfirst]
  have hw := hF.width_pos
  rw [hgames]
  by_cases hn : n < 2 * w
  · rw [decide_eq_true hn, List.any_eq_true]
    refine ⟨b.game ⟨0, 0⟩, List.mem_of_getElem? (hF.getElem?_firstGames hw), ?_⟩
    rw [hF.isBye_first hw]
    simp
    omega
  · rw [decide_eq_false hn, List.any_eq_false]
    intro m hm
    obtain ⟨i, hi, rfl⟩ := List.getElem_of_mem hm
    rw [hF.getElem_firstGames, hF.isBye_first (hF.length_firstGames ▸ hi)]
    simp
    omega

section Seated

variable {teams : List Value} {i k : Nat}

/-- A bye match of the first round takes its seed on the first side, against the bye. -/
theorem seated_bye (hF : b.Fresh n w) (hi : i < min (2 * w - n) w) (ht : i < teams.length) :
    ((b.game ⟨0, i⟩).seated teams (min (2 * w - n) w) i).team1 ∈ teams ∧
      ((b.game ⟨0, i⟩).seated teams (min (2 * w - n) w) i).team2 = .str byeTeam := by
  obtain ⟨-, h2, -⟩ := hF.blank _ (hF.mem_first (show i < w by omega))
  dsimp only at h2
  rw [if_pos ⟨rfl, by omega⟩] at h2
  unfold Match.seated
  rw [if_pos hi, dif_pos ht]
  exact ⟨List.getElem_mem ht, h2⟩

/-- **Seeds fill the first round.** Distinct teams that fill between half and all of a fresh
first round, seated and then cleared of byes, leave every match with two of them, or with one
that has gone through against the bye. -/
theorem firstRoundOf_clearing (hF : b.Fresh n w) {ids : List String}
    (hids : ∀ s ∈ ids, s ≠ "" ∧ s ≠ byeTeam) (hlen : ids.length = n) (hwn : w ≤ n)
    (hn : n ≤ 2 * w) {c : Bracket} (hc : Clearing (b.seatFirst (ids.map .str)) [] c []) :
    FirstRoundOf (ids.map .str) c := by
  set teams := ids.map Value.str with hteams
  have hlen' : teams.length = n := by rw [hteams, List.length_map, hlen]
  have hpos : c.positions = b.positions :=
    (positions_eq_of_skeleton hc.skeleton_eq).trans (positions_seatFirst teams)
  have hvals : ∀ v ∈ teams, v.isNull = false ∧ v.eqv (.str byeTeam) = false := fun v hv => by
    obtain ⟨s, hs, rfl⟩ := List.mem_map.1 hv
    simp [Value.isNull, Value.eqv, (hids s hs).2]
  have hseat : ∀ i, i < w → (b.seatFirst teams).game ⟨0, i⟩ =
      (b.game ⟨0, i⟩).seated teams (min (2 * w - n) w) i := fun i hi => by
    rw [hF.game_seatFirst, if_pos ⟨rfl, hi⟩]
  refine ⟨?_, fun i hi => ?_⟩
  · -- the first round keeps the seated teams, so it keeps their sides
    have hsides : ∀ i ∈ Finset.range w,
        (c.game ⟨0, i⟩).sides = ((b.seatFirst teams).game ⟨0, i⟩).sides := fun i _ => by
      unfold Match.sides
      rw [(hc.teams_eq i).1, (hc.teams_eq i).2]
    rw [hF.firstSides_eq_sum hpos, Finset.sum_congr rfl hsides,
      ← hF.firstSides_eq_sum (positions_seatFirst teams), hF.firstSides_seatFirst hvals hlen' hn]
  · have hiw : i < w := hF.lt_of_mem_first (hpos ▸ hi)
    obtain ⟨h1, h2⟩ := hc.teams_eq i
    by_cases hib : i < min (2 * w - n) w
    · -- a bye match: its seed has gone through
      obtain ⟨ht, hbye⟩ := hF.seated_bye hib (show i < teams.length by omega)
      rw [← hseat i hiw] at ht hbye
      obtain ⟨s, hs, hs'⟩ := List.mem_map.1 ht
      have hne : ((b.seatFirst teams).game ⟨0, i⟩).team1 ≠ .str byeTeam := by
        rw [← hs']
        exact fun h => (hids s hs).2 (Value.str.inj h)
      have hnull : ((b.seatFirst teams).game ⟨0, i⟩).team1 ≠ .null := by
        rw [← hs']
        exact fun h => by cases h
      obtain ⟨hdone, hwin⟩ := hc.bye_decided hi hnull hne hbye
      exact .inr ⟨h1 ▸ ht, h2.trans hbye, hdone, hwin.trans h1.symm⟩
    · -- a match after the byes: two seeds
      obtain ⟨k, rfl⟩ : ∃ k, i = min (2 * w - n) w + k := ⟨i - min (2 * w - n) w, by omega⟩
      have hplay := Match.seated_play (b.game ⟨0, min (2 * w - n) w + k⟩)
        (B := min (2 * w - n) w) (P := w - min (2 * w - n) w) (hlen'.trans (by omega))
        (show k < w - min (2 * w - n) w by omega)
      rw [← hseat _ hiw] at hplay
      exact .inl ⟨h1 ▸ hplay.1, h2 ▸ hplay.2⟩

end Seated

section Crossed

/-- **Crossed pairs fill the first round.** Crossing winners and runners-up, as many of each as
there are first-round matches, into a fresh draw without byes gives every match its pair, and
the first round holds every one of them once. -/
theorem firstRoundOf_crossed (hF : b.Fresh n w) (hw : w % 2 = 0)
    {W S : List Value} (hW : W.length = w) (hS : S.length = w)
    (hv : ∀ v ∈ W ++ S, v.truthy = true ∧ v.eqv (.str byeTeam) = false) :
    FirstRoundOf (W ++ S) (b.crossed w (Step.crossPairs W S w)) := by
  have hwidth := hF.length_roundOf_zero
  have htruthy : ∀ v ∈ W ++ S, v.truthy = true := fun v hv' => (hv v hv').1
  refine ⟨?_, fun i hi => .inl ?_⟩
  · rw [firstSides_crossed hwidth hw hW hS htruthy, Multiset.filter_eq_self]
    intro v hv'
    simp [(hv v (Multiset.mem_coe.1 hv')).2]
  · have hiw : i < w := hF.lt_of_mem_first (positions_crossed _ ▸ hi)
    by_cases hih : i < w / 2
    · obtain ⟨h1, h2, -, -⟩ := crossed_pairs hwidth.ge hw hW hS htruthy hih
      exact ⟨List.mem_append_left _ (List.mem_of_getElem? h1),
        List.mem_append_right _ (List.mem_of_getElem? h2)⟩
    · obtain ⟨j, rfl⟩ : ∃ j, i = w / 2 + j := ⟨i - w / 2, by omega⟩
      obtain ⟨-, -, h1, h2⟩ := crossed_pairs hwidth.ge hw hW hS htruthy (show j < w / 2 by omega)
      exact ⟨List.mem_append_right _ (List.mem_of_getElem? h1),
        List.mem_append_left _ (List.mem_of_getElem? h2)⟩

end Crossed

end Bracket.Fresh

end TournamentDraw
