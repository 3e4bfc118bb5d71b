import TournamentDraw.Proofs.Layout

/-!
# Generated double elimination

For a count of `n ≥ 2` teams, double elimination has `k ≥ 1` winners rounds over `2 ^ k`
places, as single elimination has (`doubleElimination_int`), then `2 * k - 2` losers rounds and
the grand final. The losers rounds come in pairs: the first of a pair takes the losers dropping
from a winners round against the survivors of the losers rounds, the second halves
(`losersCount_succ`). The losers of the first winners round meet each other, and the loser of
the winners final plays the losers final, or, with no losers rounds, the grand final again.

Read as a table (`doubleName`, `doubleLink`), the draw is laid out; `doubleSide` is the side a
link arrives at and `doubleSource` gives each link back from that side, so the draw is wired
(`wired_doubleDraw`). Nothing in it is played (`fresh_doubleElimination`).
-/

namespace TournamentDraw

namespace Generate

/-- How double elimination builds winners round `r` of `k`: the first round marks its byes. -/
def doubleBuild (byes k : Nat) (r : Nat) (games : List Match) : Round :=
  { number := .int r,
    name := .str (if r = k then "Winners Final" else s!"Winners Round {r}"),
    games := if r = 1 then markByes byes games else games,
    lane := some .winners }

/-- How double elimination builds losers round `r` of a draw of `k` winners rounds. -/
def loserBuild (k : Nat) (r : Nat) (games : List Match) : Round :=
  { number := .int (r + k),
    name := .str (if r = 2 * k - 2 then "Losers Final" else s!"Losers Round {r}"),
    games := games, lane := some .losers }

/-- The number of the first match of losers round `l` (from 0), counted on from the winners
rounds. -/
def loserNumber (k l : Nat) : Nat :=
  firstNumber (2 ^ k) k + ((List.range l).map fun l' => losersCount (2 ^ k) (l' + 1)).sum

/-- The grand final of a double elimination draw of `k` winners rounds. -/
def finalGame (k : Nat) : Match :=
  { id := .str s!"grand_final_{loserNumber k (2 * k - 2)}",
    round := .int ((k + (2 * k - 2) + 1 : Nat) : Int), number := .int 1 }

/-- The round of the grand final. -/
def finalRound (k : Nat) : Round :=
  { number := .int ((k + (2 * k - 2) + 1 : Nat) : Int), name := .str "Grand Finals",
    games := [finalGame k], lane := some .grandFinal }

/-- The losers rounds of double elimination, linked round to round and the last to the grand
final. -/
def losersLadder (k : Nat) : List Round :=
  (linkLosers (numbered "losers" (losersCount (2 ^ k)) (· + k) (loserBuild k)
    ((List.range (2 * k - 2)).map (· + 1)) (firstNumber (2 ^ k) k))).modify (2 * k - 2 - 1)
    fun r => modifyFirst r fun m => { m with next := firstId (finalRound k) }

/-- The rounds of double elimination: winners rounds sending their losers down, losers rounds,
grand final. -/
def doubleLadder (k byes : Nat) : List Round :=
  (((winnersRounds "winners" (doubleBuild byes k) k (2 ^ k)).modify (k - 1) fun r =>
      modifyFirst r fun m => { m with next := firstId (finalRound k) }).zipIdx.map
    fun (w, r) => routeLosers k (losersLadder k) (finalRound k) r w) ++
  losersLadder k ++ [finalRound k]

/-- A double elimination draw of `k` winners rounds with `byes` byes. -/
def doubleDraw (k byes : Nat) (seed : Value) : Bracket :=
  { format := .doubleElimination, rounds := doubleLadder k byes, seed := seed }

theorem doubleElimination_int {n : Int} (hn : 2 ≤ n) (seed : Value) :
    doubleElimination (.int n) seed =
      .ok (doubleDraw (Shape.ceilLog2 n.toNat) (2 ^ Shape.ceilLog2 n.toNat - n.toNat) seed) := by
  unfold doubleElimination doubleDraw
  rw [Shape.knockout_int hn]
  generalize Shape.ceilLog2 n.toNat = k
  simp only [bind, Except.bind]
  rfl

/-- The losers rounds of a draw of `2 ^ k` places come in pairs of equal size, halving from
pair to pair: round `l` (from 0) holds `2 ^ (k - 2 - l / 2)` matches. -/
theorem losersCount_eq {k l : Nat} (hl : l + 2 < 2 * k) :
    losersCount (2 ^ k) (l + 1) = 2 ^ (k - 2 - l / 2) := by
  have he : (l + 1 + 1) / 2 + 1 = l / 2 + 2 := by omega
  have hsplit : 2 ^ k = 2 ^ (k - 2 - l / 2) * 2 ^ (l / 2 + 2) := by
    rw [← Nat.pow_add]
    congr 1
    omega
  unfold losersCount
  simp only [he]
  have hd := Nat.two_pow_pos (l / 2 + 2)
  rw [hsplit, Nat.add_sub_assoc (Nat.one_le_two_pow), Nat.mul_comm (2 ^ (k - 2 - l / 2)),
    Nat.mul_add_div hd, Nat.div_eq_of_lt (Nat.sub_lt hd Nat.one_pos), Nat.add_zero]


theorem losersCount_pos {k l : Nat} (hl : l + 2 < 2 * k) : 0 < losersCount (2 ^ k) (l + 1) := by
  rw [losersCount_eq hl]
  exact Nat.two_pow_pos _

/-- Losers rounds come in pairs: the first of a pair takes as many matches as the round before
it, the second halves. -/
theorem losersCount_succ {k l : Nat} (hl : l + 3 < 2 * k) :
    losersCount (2 ^ k) (l + 1) = (if l % 2 = 1 then 2 else 1) * losersCount (2 ^ k) (l + 1 + 1) := by
  rw [losersCount_eq (by omega), losersCount_eq (by omega)]
  split
  · rw [← Nat.pow_succ']
    congr 1
    omega
  · rw [Nat.one_mul]
    congr 1
    omega

/-- A losers round is smaller than the one before it just after a round of drops. -/
theorem losersCount_lt_iff {k l : Nat} (hl : l + 3 < 2 * k) :
    losersCount (2 ^ k) (l + 1 + 1) < losersCount (2 ^ k) (l + 1) ↔ l % 2 = 1 := by
  have hs := losersCount_succ (k := k) (l := l) hl
  have hpos := losersCount_pos (k := k) (l := l + 1) (by omega)
  by_cases hodd : l % 2 = 1
  · rw [if_pos hodd] at hs
    simp only [hodd, iff_true]
    omega
  · rw [if_neg hodd] at hs
    simp only [hodd, iff_false]
    omega

/-- The winner of match `i` of losers round `l` plays on in match `i / 2` of the next round
after a halving, else in match `i`. -/
theorem losersNext_lt {k l i : Nat} (hl : l + 3 < 2 * k) (hi : i < losersCount (2 ^ k) (l + 1)) :
    (if l % 2 = 1 then i / 2 else i) < losersCount (2 ^ k) (l + 1 + 1) := by
  have hs := losersCount_succ (k := k) (l := l) hl
  by_cases hodd : l % 2 = 1
  · rw [if_pos hodd] at hs ⊢
    omega
  · rw [if_neg hodd] at hs ⊢
    omega

/-- The last losers round holds the one losers final. -/
theorem losersCount_last {k : Nat} (hk : 2 ≤ k) : losersCount (2 ^ k) (2 * k - 3 + 1) = 1 := by
  rw [losersCount_eq (by omega), show k - 2 - (2 * k - 3) / 2 = 0 by omega, Nat.pow_zero]

/-- The match at index `i` of losers round `l` (from 0) of double elimination: winners go on
to the next losers round, from the losers final to the grand final. -/
def losersGame (k l i : Nat) : Match :=
  { id := .str (tag "losers" (loserNumber k l + i)), round := .int ↑(l + 1 + k),
    number := .int (i + 1),
    next := if l + 1 < 2 * k - 2 then
        .str (tag "losers" (loserNumber k (l + 1) + if l % 2 = 1 then i / 2 else i))
      else (finalGame k).id }

theorem getElem?_losersBase {k l : Nat} (hl : l < 2 * k - 2) :
    (numbered "losers" (losersCount (2 ^ k)) (· + k) (loserBuild k)
      ((List.range (2 * k - 2)).map (· + 1)) (firstNumber (2 ^ k) k))[l]? =
      some (loserBuild k (l + 1) (numberedGames "losers" (losersCount (2 ^ k)) (· + k) (l + 1)
        (loserNumber k l))) := by
  rw [getElem?_numbered, List.getElem?_map, List.getElem?_range hl, Option.map_some,
    Option.map_some, ← List.map_take, List.take_range, Nat.min_eq_left hl.le, List.map_map]
  rfl

@[simp] theorem length_losersLadder (k : Nat) : (losersLadder k).length = 2 * k - 2 := by
  simp [losersLadder]

theorem getElem?_losersLadder (k l i : Nat) :
    ((losersLadder k)[l]?).bind (·.games[i]?) =
      if l < 2 * k - 2 ∧ i < losersCount (2 ^ k) (l + 1) then some (losersGame k l i)
      else none := by
  unfold losersLadder
  rw [List.getElem?_modify, getElem?_linkLosers]
  by_cases hl : l < 2 * k - 2
  · rw [getElem?_losersBase hl]
    by_cases hlast : l + 1 < 2 * k - 2
    · rw [getElem?_losersBase hlast]
      simp only [Option.map_eq_map, Option.map_some, Option.elim_some,
        if_neg (show 2 * k - 2 - 1 ≠ l by omega), Option.bind_some,
        getElem?_games_linkLosersPair, loserBuild, length_numberedGames, getElem?_numberedGames]
      by_cases hi : i < losersCount (2 ^ k) (l + 1)
      · simp only [losersCount_lt_iff (show l + 3 < 2 * k by omega), hi,
          losersNext_lt (show l + 3 < 2 * k by omega) hi, hl, and_self, if_true, Option.map_some,
          Option.elim_some, losersGame, if_pos hlast]
        rfl
      · simp [hi]
    · rw [List.getElem?_eq_none (by simp; omega)]
      have h1 := losersCount_last (k := k) (by omega)
      obtain rfl : l = 2 * k - 3 := by omega
      simp only [Option.map_eq_map, Option.map_some, Option.elim_none,
        if_pos (show 2 * k - 2 - 1 = 2 * k - 3 by omega), Option.bind_some,
        getElem?_games_modifyFirst, loserBuild]
      cases i with
      | zero =>
        simp only [getElem?_numberedGames, h1, Nat.zero_lt_one, if_true, Option.map_some,
          losersGame, if_neg (show ¬(2 * k - 3 + 1 < 2 * k - 2) by omega), firstId, finalRound, and_true, if_pos hl]
        rfl
      | succ i => simp [h1]
  · rw [List.getElem?_eq_none (by simp; omega)]
    simp [hl]

theorem exists_losersRound {k l : Nat} (hl : l < 2 * k - 2) :
    ∃ r, (losersLadder k)[l]? = some r ∧ r.games.length = losersCount (2 ^ k) (l + 1) ∧
      ∀ i < losersCount (2 ^ k) (l + 1), r.games[i]? = some (losersGame k l i) := by
  obtain ⟨r, hr⟩ : ∃ r, (losersLadder k)[l]? = some r :=
    Option.isSome_iff_exists.1 (by simp; omega)
  have hget : ∀ i, r.games[i]? =
      if i < losersCount (2 ^ k) (l + 1) then some (losersGame k l i) else none := by
    intro i
    have := getElem?_losersLadder k l i
    rw [hr, Option.bind_some] at this
    simpa [hl] using this
  exact ⟨r, hr, length_eq_of_getElem? hget, fun i hi => by rw [hget, if_pos hi]⟩

/-- The round the losers of winners round `j` drop into. -/
def dropRound (k j : Nat) : Round :=
  if j + 1 = k then (losersLadder k).getLast?.getD (finalRound k)
  else if j = 0 then (losersLadder k).headD (finalRound k)
  else (losersLadder k).getD (2 * j - 1) (finalRound k)

/-- The id of the match the loser of winners match `(j, i)` drops into: two losers of the first
round meet, a loser of a later round meets a survivor of the losers rounds, and the loser of the
winners final plays the losers final, or the grand final again when there are no losers rounds. -/
def dropId (k j i : Nat) : Value :=
  if j + 1 = k then (if k = 1 then (finalGame k).id else (losersGame k (2 * k - 3) 0).id)
  else if j = 0 then (losersGame k 0 (i / 2)).id else (losersGame k (2 * j - 1) i).id

/-- The losers of the first winners round meet in pairs. -/
theorem losersCount_first {k : Nat} (hk : 2 ≤ k) :
    2 ^ k / 2 ^ (0 + 1) = 2 * losersCount (2 ^ k) (0 + 1) := by
  rw [losersCount_eq (by omega), Nat.pow_div (by omega) (by omega), ← Nat.pow_succ']
  congr 1
  omega

/-- The losers of a later winners round each meet one survivor of the losers rounds. -/
theorem losersCount_drop {k j : Nat} (h0 : 0 < j) (hj : j < k) :
    losersCount (2 ^ k) (2 * j - 1 + 1) = 2 ^ k / 2 ^ (j + 1) := by
  rw [losersCount_eq (by omega), Nat.pow_div (by omega) (by omega),
    show k - 2 - (2 * j - 1) / 2 = k - (j + 1) by omega]

theorem dropRound_games {k j i : Nat} (hj : j < k) (hi : i < 2 ^ k / 2 ^ (j + 1)) :
    ∃ t, (dropRound k j).games[min (i / if j = 0 then 2 else 1)
      ((dropRound k j).games.length - 1)]? = some t ∧ t.id = dropId k j i := by
  by_cases hlast : j + 1 = k
  · by_cases hk1 : k = 1
    · subst hk1
      have hnil : losersLadder 1 = [] := List.eq_nil_of_length_eq_zero (by simp)
      refine ⟨finalGame 1, ?_, ?_⟩
      · simp [dropRound, hlast, hnil, finalRound]
      · simp [dropId, hlast]
    · obtain ⟨r, hr, hlen, hget⟩ := exists_losersRound (k := k) (l := 2 * k - 3) (by omega)
      have hdrop : dropRound k j = r := by
        simp [dropRound, hlast, List.getLast?_eq_getElem?, show 2 * k - 2 - 1 = 2 * k - 3 by omega,
          hr]
      refine ⟨losersGame k (2 * k - 3) 0, ?_, ?_⟩
      · rw [hdrop, hlen, losersCount_last (by omega), Nat.sub_self, Nat.min_zero]
        exact hget 0 (by rw [losersCount_last (by omega)]; omega)
      · simp [dropId, hlast, hk1]
  · by_cases hj0 : j = 0
    · subst hj0
      obtain ⟨r, hr, hlen, hget⟩ := exists_losersRound (k := k) (l := 0) (by omega)
      have hc := losersCount_first (show 2 ≤ k by omega)
      have hdrop : dropRound k 0 = r := by simp [dropRound, hlast, List.head?_eq_getElem?, hr]
      refine ⟨losersGame k 0 (i / 2), ?_, ?_⟩
      · rw [hdrop, hlen, if_pos rfl, Nat.min_eq_left (by omega)]
        exact hget _ (by omega)
      · simp [dropId, hlast]
    · obtain ⟨r, hr, hlen, hget⟩ := exists_losersRound (k := k) (l := 2 * j - 1) (by omega)
      have hc := losersCount_drop (Nat.pos_of_ne_zero hj0) hj
      have hdrop : dropRound k j = r := by
        simp [dropRound, hlast, hj0, List.getD_eq_getElem?_getD, hr]
      refine ⟨losersGame k (2 * j - 1) i, ?_, ?_⟩
      · rw [hdrop, hlen, if_neg hj0, Nat.div_one, Nat.min_eq_left (by omega)]
        exact hget _ (by omega)
      · simp [dropId, hlast, hj0]

/-- The match at place `(j, i)` of the winners rounds of double elimination: its winner goes on
as in single elimination, from the winners final to the grand final, and its loser drops. -/
def doubleGame (k byes j i : Nat) : Match :=
  { winnersGame "winners" k (2 ^ k) byes j i with
    next := if j + 1 < k then (winnersGame "winners" k (2 ^ k) byes j i).next else (finalGame k).id,
    loserNext := dropId k j i }

theorem getElem?_games_routeLosers_of_lt {k j i : Nat} (hj : j < k)
    (hi : i < 2 ^ k / 2 ^ (j + 1)) (w : Round) {m : Match} (hw : w.games[i]? = some m) :
    (routeLosers k (losersLadder k) (finalRound k) j w).games[i]? =
      some { m with loserNext := dropId k j i } := by
  obtain ⟨t, ht, hid⟩ := dropRound_games hj hi
  rw [getElem?_games_routeLosers, hw, Option.map_some]
  change some (((dropRound k j).games[min (i / if j = 0 then 2 else 1)
    ((dropRound k j).games.length - 1)]?).elim m _) = _
  rw [ht, Option.elim_some, hid]

theorem getElem?_doubleLadder_winners {k byes j : Nat} (hj : j < k) (i : Nat) :
    ((doubleLadder k byes)[j]?).bind (·.games[i]?) =
      if i < 2 ^ k / 2 ^ (j + 1) then some (doubleGame k byes j i) else none := by
  have hW := @getElem?_winnersGames "winners" k (2 ^ k) byes j rfl hj (doubleBuild byes k)
    (fun _ _ => rfl) i
  obtain ⟨R, hR⟩ : ∃ R, (winnersRounds "winners" (doubleBuild byes k) k (2 ^ k))[j]? = some R :=
    Option.isSome_iff_exists.1 (by simp; omega)
  rw [hR, Option.bind_some] at hW
  unfold doubleLadder
  rw [List.getElem?_append_left (by simp; omega), List.getElem?_append_left (by simp; omega),
    List.getElem?_map, List.getElem?_zipIdx, List.getElem?_modify, hR]
  simp only [Option.map_eq_map, Option.map_some, Option.bind_some, Nat.zero_add]
  by_cases hi : i < 2 ^ k / 2 ^ (j + 1)
  · rw [if_pos hi]
    by_cases hkj : k - 1 = j
    · -- the winners final: one match, sent on to the grand final
      have hi0 : i = 0 := by
        rw [Nat.pow_div (by omega) (by omega), show k - (j + 1) = 0 by omega] at hi
        omega
      subst hi0
      rw [if_pos hkj, getElem?_games_routeLosers_of_lt hj hi _
        (by rw [getElem?_games_modifyFirst, if_pos rfl, hW, if_pos hi, Option.map_some])]
      simp only [doubleGame, if_neg (show ¬(j + 1 < k) by omega)]
      rfl
    · rw [if_neg hkj, getElem?_games_routeLosers_of_lt hj hi R (by rw [hW, if_pos hi])]
      simp only [doubleGame, winnersGame, if_pos (show j + 1 < k by omega)]
  · rw [if_neg hi]
    have hnone : (if k - 1 = j then modifyFirst R fun m => { m with next := firstId (finalRound k) }
        else R).games[i]? = none := by
      split <;> simp [getElem?_games_modifyFirst, hW, hi]
    rw [getElem?_games_routeLosers, hnone]
    rfl

/-- How many matches round `j` of double elimination holds: the winners rounds halve, the
losers rounds halve every second round, and the grand final is one match. -/
def doubleCount (k j : Nat) : Nat :=
  if j < k then 2 ^ k / 2 ^ (j + 1)
  else if j < 3 * k - 2 then losersCount (2 ^ k) (j - k + 1)
  else if j = 3 * k - 2 then 1 else 0

/-- The match at place `(j, i)` of double elimination. -/
def doubleMatch (k byes j i : Nat) : Match :=
  if j < k then doubleGame k byes j i
  else if j < 3 * k - 2 then losersGame k (j - k) i else finalGame k

theorem getElem?_doubleLadder {k : Nat} (hk : 1 ≤ k) (byes j i : Nat) :
    ((doubleLadder k byes)[j]?).bind (·.games[i]?) =
      if i < doubleCount k j then some (doubleMatch k byes j i) else none := by
  by_cases hj : j < k
  · rw [getElem?_doubleLadder_winners hj]
    simp [doubleCount, doubleMatch, hj]
  · unfold doubleLadder
    by_cases hl : j < 3 * k - 2
    · rw [List.getElem?_append_left (by simp; omega), List.getElem?_append_right (by simp; omega),
        List.length_map, List.length_zipIdx, List.length_modify, length_winnersRounds,
        getElem?_losersLadder]
      simp [doubleCount, doubleMatch, hj, hl, show j - k < 2 * k - 2 by omega]
    · rw [List.getElem?_append_right (by simp; omega)]
      by_cases hf : j = 3 * k - 2
      · subst hf
        simp only [doubleCount, doubleMatch, if_neg hj, if_neg hl, if_true, List.length_append,
          List.length_map, List.length_zipIdx, List.length_modify, length_winnersRounds,
          length_losersLadder, show 3 * k - 2 - (k + (2 * k - 2)) = 0 by omega,
          List.getElem?_cons_zero, Option.bind_some, finalRound]
        cases i <;> simp
      · rw [List.getElem?_eq_none (by simp; omega)]
        simp [doubleCount, hj, hl, hf]

/-- The lane of round `j` of double elimination. -/
def doubleLane (k j : Nat) : Option Lane :=
  if j < k then some .winners else if j < 3 * k - 2 then some .losers else some .grandFinal

theorem doubleLane_winners {k j : Nat} (hj : j < k) : doubleLane k j = some .winners := if_pos hj

theorem doubleLane_losers {k j : Nat} (hj : k ≤ j) (hl : j < 3 * k - 2) :
    doubleLane k j = some .losers := by
  rw [doubleLane, if_neg (by omega), if_pos hl]

theorem doubleLane_final {k j : Nat} (hk : 1 ≤ k) (hj : 3 * k - 2 ≤ j) :
    doubleLane k j = some .grandFinal := by
  rw [doubleLane, if_neg (by omega), if_neg (by omega)]

theorem lane_losersLadder {k l : Nat} (hl : l < 2 * k - 2) :
    ((losersLadder k)[l]?).map Round.lane = some (some .losers) := by
  unfold losersLadder
  rw [List.getElem?_modify, getElem?_linkLosers, getElem?_losersBase hl]
  simp only [Option.map_eq_map, Option.map_some]
  split <;> cases (numbered "losers" (losersCount (2 ^ k)) (· + k) (loserBuild k)
    ((List.range (2 * k - 2)).map (· + 1)) (firstNumber (2 ^ k) k))[l + 1]? <;> rfl

theorem lane_doubleLadder {k : Nat} (hk : 1 ≤ k) (byes : Nat) {j : Nat} (hj : j ≤ 3 * k - 2) :
    ((doubleLadder k byes)[j]?).map Round.lane = some (doubleLane k j) := by
  unfold doubleLadder
  by_cases hw : j < k
  · have hW := @lane_winnersRounds "winners" k (2 ^ k) j (doubleBuild byes k)
      (fun _ _ => rfl) hw
    rw [List.getElem?_append_left (by simp; omega), List.getElem?_append_left (by simp; omega),
      List.getElem?_map, List.getElem?_zipIdx, List.getElem?_modify]
    simp only [doubleLane, if_pos hw]
    cases h : (winnersRounds "winners" (doubleBuild byes k) k (2 ^ k))[j]? with
    | none => simp [h] at hW
    | some R =>
      rw [h] at hW
      simp only [Option.map_some, Option.some.injEq] at hW
      simp only [Option.map_eq_map, Option.map_some, Option.some.injEq]
      split <;> exact hW
  · by_cases hl : j < 3 * k - 2
    · rw [List.getElem?_append_left (by simp; omega), List.getElem?_append_right (by simp; omega),
        List.length_map, List.length_zipIdx, List.length_modify, length_winnersRounds,
        lane_losersLadder (by omega)]
      simp [doubleLane, hw, hl]
    · rw [List.getElem?_append_right (by simp; omega)]
      simp [doubleLane, hw, hl, show j - (k + (2 * k - 2)) = 0 by omega, finalRound]

/-- The names of the matches of double elimination, by place. -/
def doubleName (k : Nat) (p : Pos) : String :=
  if p.round < k then tag "winners" (firstNumber (2 ^ k) p.round + p.index)
  else if p.round < 3 * k - 2 then tag "losers" (loserNumber k (p.round - k) + p.index)
  else tag "grand_final" (loserNumber k (2 * k - 2))

/-- The links of double elimination, by place: winners go on in their own bracket and from
its last round to the grand final, losers of the winners rounds drop into the losers rounds. -/
def doubleLink (k : Nat) (p : Pos) : Link → Option Pos
  | .next =>
    if p.round + 1 < k then some ⟨p.round + 1, p.index / 2⟩
    else if k ≤ p.round ∧ p.round + 1 < 3 * k - 2 then
      some ⟨p.round + 1, if (p.round - k) % 2 = 1 then p.index / 2 else p.index⟩
    else if p.round < 3 * k - 2 then some ⟨3 * k - 2, 0⟩ else none
  | .loserNext =>
    if p.round + 1 = k then some ⟨if k = 1 then 1 else 3 * k - 3, 0⟩
    else if p.round = 0 then some ⟨k, p.index / 2⟩
    else if p.round < k then some ⟨k + 2 * p.round - 1, p.index⟩ else none

theorem eq_of_loserNumber_eq {k l l' i i' : Nat} (hi : l < l' → i < losersCount (2 ^ k) (l + 1))
    (hi' : l' < l → i' < losersCount (2 ^ k) (l' + 1))
    (h : loserNumber k l + i = loserNumber k l' + i') : l = l' ∧ i = i' := by
  unfold loserNumber at h
  exact eq_of_sum_range_add_eq (c := fun l => losersCount (2 ^ k) (l + 1)) hi hi' (by omega)

theorem doubleCount_pos {k j : Nat} (hk : 1 ≤ k) (hj : j ≤ 3 * k - 2) : 0 < doubleCount k j := by
  unfold doubleCount
  split
  · exact Nat.div_pos (Nat.pow_le_pow_right (by omega) (by omega)) (Nat.two_pow_pos _)
  · split
    · rw [losersCount_eq (by omega)]
      exact Nat.two_pow_pos _
    · rw [if_pos (by omega)]
      exact Nat.one_pos

/-- Beyond the losers rounds there is only the grand final, with its one match. -/
theorem final_of_lt_doubleCount {k j i : Nat} (hk : 1 ≤ k) (hj : 3 * k - 2 ≤ j)
    (hi : i < doubleCount k j) : j = 3 * k - 2 ∧ i = 0 := by
  rw [doubleCount, if_neg (by omega), if_neg (by omega)] at hi
  split at hi <;> omega

theorem length_doubleLadder (k byes : Nat) :
    (doubleLadder k byes).length = k + (2 * k - 2) + 1 := by
  simp only [doubleLadder, List.length_append, List.length_map, List.length_zipIdx,
    List.length_modify, length_winnersRounds, length_losersLadder, List.length_singleton]

/-- Every link of a match of double elimination names the match the table links it to. -/
theorem target_doubleMatch {k : Nat} (hk : 1 ≤ k) (byes : Nat) (p : Pos) (lk : Link) :
    (doubleMatch k byes p.round p.index).target lk =
      ((doubleLink k p lk).map fun q => Value.str (doubleName k q)).getD .null := by
  obtain ⟨j, i⟩ := p
  have hfinal : doubleName k ⟨3 * k - 2, 0⟩ = tag "grand_final" (loserNumber k (2 * k - 2)) := by
    simp [doubleName, show ¬(3 * k - 2 < k) by omega]
  by_cases hw : j < k
  · rw [doubleMatch, if_pos hw]
    cases lk with
    | next =>
      by_cases hn : j + 1 < k
      · simp only [Match.target, doubleGame, winnersGame, doubleLink, if_pos hn, Option.map_some,
          Option.getD_some, doubleName]
        rfl
      · simp only [Match.target, doubleGame, doubleLink, if_neg hn,
          show ¬(k ≤ j ∧ j + 1 < 3 * k - 2) by omega, if_false, if_pos (show j < 3 * k - 2 by omega),
          Option.map_some, Option.getD_some, hfinal]
        rfl
    | loserNext =>
      simp only [Match.target, doubleGame, dropId, doubleLink]
      by_cases hl : j + 1 = k
      · by_cases h1 : k = 1
        · subst h1
          simp only [if_pos hl, if_true, Option.map_some, Option.getD_some]
          rw [show (1 : Nat) = 3 * 1 - 2 by rfl, hfinal]
          rfl
        · simp only [if_pos hl, if_neg h1, Option.map_some, Option.getD_some, losersGame,
            doubleName, show ¬(3 * k - 3 < k) by omega, show 3 * k - 3 < 3 * k - 2 by omega,
            if_true, if_false, show 3 * k - 3 - k = 2 * k - 3 by omega]
      · by_cases h0 : j = 0
        · simp only [if_neg hl, if_pos h0, Option.map_some, Option.getD_some, losersGame,
            doubleName, Nat.lt_irrefl, show k < 3 * k - 2 by omega, if_true, if_false,
            Nat.sub_self]
        · simp only [if_neg hl, if_neg h0, if_pos hw, Option.map_some, Option.getD_some,
            losersGame, doubleName, show ¬(k + 2 * j - 1 < k) by omega,
            show k + 2 * j - 1 < 3 * k - 2 by omega, if_true, if_false,
            show k + 2 * j - 1 - k = 2 * j - 1 by omega]
  · by_cases hl : j < 3 * k - 2
    · rw [doubleMatch, if_neg hw, if_pos hl]
      cases lk with
      | next =>
        by_cases hn : j + 1 < 3 * k - 2
        · simp only [Match.target, losersGame, doubleLink, show ¬(j + 1 < k) by omega,
            if_pos (show k ≤ j ∧ j + 1 < 3 * k - 2 from ⟨by omega, hn⟩), if_false,
            if_pos (show j - k + 1 < 2 * k - 2 by omega), Option.map_some, Option.getD_some,
            doubleName, if_pos hn, show j + 1 - k = j - k + 1 by omega]
        · simp only [Match.target, losersGame, doubleLink, show ¬(j + 1 < k) by omega,
            show ¬(k ≤ j ∧ j + 1 < 3 * k - 2) by omega, if_false, if_pos hl,
            if_neg (show ¬(j - k + 1 < 2 * k - 2) by omega), Option.map_some, Option.getD_some,
            hfinal]
          rfl
      | loserNext =>
        simp [Match.target, losersGame, doubleLink, show ¬(j + 1 = k) by omega,
          show j ≠ 0 by omega, hw]
    · rw [doubleMatch, if_neg hw, if_neg hl]
      cases lk <;> simp [Match.target, finalGame, doubleLink, hl, show ¬(j + 1 < k) by omega,
        show ¬(j + 1 = k) by omega, show j ≠ 0 by omega, show ¬(j + 1 < 3 * k - 2) by omega, hw]

theorem doubleCount_winners {k j : Nat} (hj : j < k) : doubleCount k j = 2 ^ k / 2 ^ (j + 1) :=
  if_pos hj

theorem doubleCount_losers {k j : Nat} (hj : k ≤ j) (hl : j < 3 * k - 2) :
    doubleCount k j = losersCount (2 ^ k) (j - k + 1) := by
  rw [doubleCount, if_neg (by omega), if_pos hl]

/-- Every link of the table leads forward, to a match of the draw. -/
theorem doubleLink_mem {k : Nat} (hk : 1 ≤ k) {p q : Pos} (hp : p.index < doubleCount k p.round)
    {lk : Link} (hl : doubleLink k p lk = some q) :
    q.index < doubleCount k q.round ∧ p.round < q.round := by
  obtain ⟨j, i⟩ := p
  have hfinal : 0 < doubleCount k (3 * k - 2) := doubleCount_pos hk le_rfl
  dsimp only at hp
  cases lk with
  | next =>
    simp only [doubleLink] at hl
    split at hl
    · next hn =>
      cases hl
      have hc := count_eq_two_mul (rfl : 2 ^ k = 2 ^ k) (show j + 2 ≤ k by omega)
      rw [doubleCount_winners (by omega)] at hp
      refine ⟨?_, by simp⟩
      dsimp only
      rw [doubleCount_winners hn, show j + 1 + 1 = j + 2 by omega]
      omega
    · split at hl
      · next hn =>
        cases hl
        rw [doubleCount_losers hn.1 (by omega)] at hp
        refine ⟨?_, by simp⟩
        dsimp only
        rw [doubleCount_losers (by omega) hn.2, show j + 1 - k + 1 = j - k + 1 + 1 by omega]
        exact losersNext_lt (by omega) hp
      · split at hl
        · next hn =>
          cases hl
          exact ⟨hfinal, hn⟩
        · cases hl
  | loserNext =>
    simp only [doubleLink] at hl
    split at hl
    · next hn =>
      cases hl
      by_cases h1 : k = 1
      · subst h1
        exact ⟨hfinal, by simp; omega⟩
      · simp only [if_neg h1]
        refine ⟨?_, by omega⟩
        rw [doubleCount_losers (by omega) (by omega), show 3 * k - 3 - k + 1 = 2 * k - 3 + 1 by omega,
          losersCount_last (by omega)]
        exact Nat.one_pos
    · split at hl
      · next hn0 =>
        cases hl
        subst hn0
        rw [doubleCount_winners (by omega)] at hp
        have hc := losersCount_first (show 2 ≤ k by omega)
        refine ⟨?_, by dsimp only; omega⟩
        dsimp only
        rw [doubleCount_losers le_rfl (by omega), Nat.sub_self]
        omega
      · split at hl
        · next hw =>
          cases hl
          rw [doubleCount_winners hw] at hp
          have hc := losersCount_drop (Nat.pos_of_ne_zero ‹_›) hw
          refine ⟨?_, by dsimp only; omega⟩
          dsimp only
          rw [doubleCount_losers (by omega) (by omega), show k + 2 * j - 1 - k = 2 * j - 1 by omega,
            hc]
          exact hp
        · cases hl

theorem round_le_of_lt_doubleCount {k j i : Nat} (hk : 1 ≤ k) (hi : i < doubleCount k j) :
    j ≤ 3 * k - 2 := by
  by_contra hj
  rw [doubleCount, if_neg (by omega), if_neg (by omega), if_neg (by omega)] at hi
  omega

/-- The winners final is alone in its round. -/
theorem index_eq_zero_of_last {k j i : Nat} (hj : j + 1 = k) (hi : i < doubleCount k j) : i = 0 := by
  rw [doubleCount_winners (by omega), Nat.pow_div (by omega) (by omega),
    show k - (j + 1) = 0 by omega] at hi
  omega

/-- Beyond the smallest draw, the winner and the loser of a match never go to the same match:
the loser drops into the losers rounds, the winner stays out of them. -/
theorem doubleLink_next_ne {k : Nat} (hk : 2 ≤ k) {p q : Pos}
    (h : doubleLink k p .loserNext = some q) : doubleLink k p .next ≠ some q := by
  obtain ⟨j, i⟩ := p
  simp only [doubleLink] at h
  have hdrop : j < k ∧ k ≤ q.round ∧ q.round < 3 * k - 2 := by
    split at h
    · cases h
      simp only [if_neg (show k ≠ 1 by omega)]
      omega
    · split at h
      · cases h
        dsimp only
        omega
      · split at h
        · cases h
          dsimp only
          omega
        · cases h
  intro h'
  simp only [doubleLink] at h'
  split at h'
  · cases h'
    dsimp only at hdrop
    omega
  · split at h'
    · next hn => omega
    · split at h'
      · cases h'
        dsimp only at hdrop
        omega
      · cases h'

/-- The side a team moving along a link of double elimination takes: by the parity of its
match where the round it enters halves, the first side where a losers round takes the winners
of the one before, the second for a loser dropping from the winners rounds, except in the
first losers round, and the grand final's first side for the winners bracket. -/
def doubleSide (k : Nat) (p : Pos) : Link → Side
  | .next =>
    if p.round + 1 < k then .ofIndex p.index
    else if k ≤ p.round ∧ p.round + 1 < 3 * k - 2 then
      (if (p.round - k) % 2 = 1 then .ofIndex p.index else .first)
    else if p.round < k then .first else .second
  | .loserNext => if p.round = 0 ∧ 1 < k then .ofIndex p.index else .second

/-- Where the team on side `s` of the match at `q` of double elimination comes from. -/
def doubleSource (k : Nat) (q : Pos) (s : Side) : Option (Pos × Link) :=
  if q.round < k then
    if 0 < q.round then some (⟨q.round - 1, 2 * q.index + s.bit⟩, .next) else none
  else if q.round < 3 * k - 2 then
    if q.round = k then some (⟨0, 2 * q.index + s.bit⟩, .loserNext)
    else if (q.round - k) % 2 = 1 then
      match s with
      | .first => some (⟨q.round - 1, q.index⟩, .next)
      | .second => some (⟨(q.round - k + 1) / 2, q.index⟩, .loserNext)
    else some (⟨q.round - 1, 2 * q.index + s.bit⟩, .next)
  else
    match s with
    | .first => some (⟨k - 1, 0⟩, .next)
    | .second => if k = 1 then some (⟨0, 0⟩, .loserNext) else some (⟨3 * k - 3, 0⟩, .next)

/-- The table's sources give back every link from the side it arrives at. -/
theorem doubleSource_doubleLink {k : Nat} (hk : 1 ≤ k) {p q : Pos}
    (hp : p.index < doubleCount k p.round) {lk : Link} (hl : doubleLink k p lk = some q) :
    doubleSource k q (doubleSide k p lk) = some (p, lk) := by
  obtain ⟨j, i⟩ := p
  dsimp only at hp
  have hlast : j + 1 = k → i = 0 := fun h => index_eq_zero_of_last h hp
  cases lk with
  | next =>
    simp only [doubleLink] at hl
    split at hl
    · next hn =>
      cases hl
      simp only [doubleSource, doubleSide, if_pos hn, if_pos (Nat.succ_pos j), Side.bit_ofIndex,
        Nat.add_sub_cancel, Option.some.injEq, Prod.mk.injEq, Pos.mk.injEq, and_true, true_and]
      omega
    · next hw =>
      split at hl
      · next hn =>
        cases hl
        have hq : j + 1 ≠ k := by omega
        by_cases hodd : (j - k) % 2 = 1
        · simp only [doubleSource, doubleSide, if_neg hw, if_pos hn, if_pos hodd,
            if_pos hn.2, if_neg hq, show ¬((j + 1 - k) % 2 = 1) by omega, if_false,
            Side.bit_ofIndex, Nat.add_sub_cancel, Option.some.injEq, Prod.mk.injEq, Pos.mk.injEq,
            and_true, true_and]
          omega
        · simp only [doubleSource, doubleSide, if_neg hw, if_pos hn, if_neg hodd,
            if_pos hn.2, if_neg hq, show (j + 1 - k) % 2 = 1 by omega, if_true,
            Nat.add_sub_cancel]
      · next hl' =>
        split at hl
        · next hn =>
          cases hl
          have hf : ¬(3 * k - 2 < k) ∧ ¬(3 * k - 2 < 3 * k - 2) := ⟨by omega, by omega⟩
          by_cases hwin : j < k
          · obtain rfl := hlast (by omega)
            simp only [doubleSource, doubleSide, if_neg hw, if_neg hl', if_pos hwin, if_neg hf.1,
              if_neg hf.2, Option.some.injEq, Prod.mk.injEq, Pos.mk.injEq, and_true]
            omega
          · -- the losers final: there are losers rounds, so at least two winners rounds
            rw [doubleCount_losers (by omega) hn, show j - k + 1 = 2 * k - 3 + 1 by omega,
              losersCount_last (by omega)] at hp
            simp only [doubleSource, doubleSide, if_neg hw, if_neg hl', if_neg hwin, if_neg hf.1,
              if_neg hf.2, if_neg (show k ≠ 1 from by omega), Option.some.injEq, Prod.mk.injEq,
              Pos.mk.injEq, and_true]
            omega
        · cases hl
  | loserNext =>
    simp only [doubleLink] at hl
    split at hl
    · next hn =>
      cases hl
      obtain rfl := hlast hn
      by_cases h1 : k = 1
      · subst h1
        obtain rfl : j = 0 := by omega
        simp [doubleSource, doubleSide]
      · have hq : ¬(3 * k - 3 < k) ∧ 3 * k - 3 < 3 * k - 2 ∧ 3 * k - 3 ≠ k ∧ (3 * k - 3 - k) % 2 = 1 :=
          ⟨by omega, by omega, by omega, by omega⟩
        simp only [doubleSource, doubleSide, if_neg h1, show ¬(j = 0 ∧ 1 < k) by omega, if_false,
          if_neg hq.1, if_pos hq.2.1, if_neg hq.2.2.1, if_pos hq.2.2.2, Option.some.injEq,
          Prod.mk.injEq, Pos.mk.injEq, and_true]
        omega
    · next hn =>
      split at hl
      · next h0 =>
        cases hl
        subst h0
        simp only [doubleSource, doubleSide, show 0 = 0 ∧ 1 < k by omega, if_true, Nat.lt_irrefl,
          if_false, if_pos (show k < 3 * k - 2 by omega), Side.bit_ofIndex, Option.some.injEq,
          Prod.mk.injEq, Pos.mk.injEq, and_true, true_and]
        omega
      · split at hl
        · next hw =>
          cases hl
          have hq : ¬(k + 2 * j - 1 < k) ∧ k + 2 * j - 1 < 3 * k - 2 ∧ k + 2 * j - 1 ≠ k ∧
              (k + 2 * j - 1 - k) % 2 = 1 := ⟨by omega, by omega, by omega, by omega⟩
          simp only [doubleSource, doubleSide, show ¬(j = 0 ∧ 1 < k) by omega, if_false,
            if_neg hq.1, if_pos hq.2.1, if_neg hq.2.2.1, if_pos hq.2.2.2, Option.some.injEq,
            Prod.mk.injEq, Pos.mk.injEq, and_true]
          omega
        · cases hl

section Double

variable {k byes : Nat} {seed : Value}

theorem matchAt?_doubleDraw (hk : 1 ≤ k) (p : Pos) :
    (doubleDraw k byes seed).matchAt? p =
      if p.index < doubleCount k p.round then some (doubleMatch k byes p.round p.index) else none :=
  getElem?_doubleLadder hk byes p.round p.index

theorem mem_doubleDraw (hk : 1 ≤ k) {p : Pos} :
    p ∈ (doubleDraw k byes seed).positions ↔ p.index < doubleCount k p.round := by
  rw [Bracket.mem_positions, matchAt?_doubleDraw hk]
  split <;> simp_all

theorem game_doubleDraw (hk : 1 ≤ k) {p : Pos} (hp : p ∈ (doubleDraw k byes seed).positions) :
    (doubleDraw k byes seed).game p = doubleMatch k byes p.round p.index := by
  have hm := Bracket.matchAt?_eq_game hp
  rw [matchAt?_doubleDraw hk, if_pos ((mem_doubleDraw hk).1 hp)] at hm
  exact (Option.some.inj hm).symm

/-- The rounds of double elimination as a side is chosen from them. -/
theorem roundOf_doubleDraw (hk : 1 ≤ k) {j : Nat} (hj : j ≤ 3 * k - 2) :
    ((doubleDraw k byes seed).roundOf j).lane = doubleLane k j ∧
      ((doubleDraw k byes seed).roundOf j).games.length = doubleCount k j := by
  have hlane := lane_doubleLadder hk byes hj
  obtain ⟨r, hr⟩ : ∃ r, (doubleLadder k byes)[j]? = some r :=
    Option.isSome_iff_exists.1 (by cases h : (doubleLadder k byes)[j]? <;> simp_all)
  have hround : (doubleDraw k byes seed).roundOf j = r := by
    simp [Bracket.roundOf, doubleDraw, hr]
  rw [hround]
  refine ⟨by simpa [hr] using hlane, length_eq_of_getElem? (f := doubleMatch k byes j) fun i => ?_⟩
  have := getElem?_doubleLadder hk byes j i
  rwa [hr, Option.bind_some] at this

theorem laid_doubleDraw (hk : 1 ≤ k) :
    (doubleDraw k byes seed).Laid (doubleName k) (doubleLink k) where
  fixtures_eq := rfl
  groups_eq := rfl
  games_ne r hr := by
    obtain ⟨j, hj⟩ := List.mem_iff_getElem?.1 hr
    change (doubleLadder k byes)[j]? = some r at hj
    have hlen := (List.getElem?_eq_some_iff.1 hj).1
    rw [length_doubleLadder] at hlen
    have h0 := getElem?_doubleLadder hk byes j 0
    rw [hj, Option.bind_some, if_pos (doubleCount_pos hk (by omega))] at h0
    intro hnil
    rw [hnil] at h0
    cases h0
  id_eq p hp := by
    have hc := (mem_doubleDraw hk).1 hp
    rw [game_doubleDraw hk hp]
    unfold doubleMatch doubleName
    split
    · rfl
    · split
      · rfl
      · rfl
  name_ne p _ := by
    unfold doubleName
    split
    · exact tag_ne_empty _ _
    · split <;> exact tag_ne_empty _ _
  name_inj p hp q hq h := by
    have hcp := (mem_doubleDraw hk).1 hp
    have hcq := (mem_doubleDraw hk).1 hq
    unfold doubleName at h
    split_ifs at h with h1 h2 h3 h4 h5 h6 h7 h8
    -- names of different regions have different prefixes
    all_goals first
      | exact absurd h (tag_ne_tag (by decide) (by decide) (by decide) _ _)
      | skip
    · rw [doubleCount, if_pos h1] at hcp
      rw [doubleCount, if_pos h2] at hcq
      exact eq_of_firstNumber_eq (fun _ => hcp) (fun _ => hcq) (tag_inj.1 h)
    · rw [doubleCount, if_neg h1, if_pos h4] at hcp
      rw [doubleCount, if_neg h5, if_pos h6] at hcq
      obtain ⟨hr, hi⟩ := eq_of_loserNumber_eq (fun _ => hcp) (fun _ => hcq) (tag_inj.1 h)
      cases p
      cases q
      simp only [Pos.mk.injEq] at *
      omega
    · obtain ⟨hpr, hpi⟩ := final_of_lt_doubleCount hk (by omega) hcp
      obtain ⟨hqr, hqi⟩ := final_of_lt_doubleCount hk (by omega) hcq
      cases p
      cases q
      simp_all
  target_eq p hp lk := by
    rw [game_doubleDraw hk hp]
    exact target_doubleMatch hk byes p lk
  link_mem p hp lk q hl := by
    obtain ⟨hq, hlt⟩ := doubleLink_mem hk ((mem_doubleDraw hk).1 hp) hl
    exact ⟨(mem_doubleDraw hk).2 hq, hlt⟩

/-- A team moving along a link of double elimination arrives at the side the table gives. -/
theorem arrival_doubleDraw (hk : 1 ≤ k) {p q : Pos} (hp : p ∈ (doubleDraw k byes seed).positions)
    {lk : Link} (hl : doubleLink k p lk = some q) :
    (doubleDraw k byes seed).arrival p lk = doubleSide k p lk := by
  have hL := @laid_doubleDraw k byes seed hk
  have hc := (mem_doubleDraw hk).1 hp
  obtain ⟨hqc, -⟩ := doubleLink_mem hk hc hl
  obtain ⟨lp, cp⟩ := @roundOf_doubleDraw k byes seed hk _
    (round_le_of_lt_doubleCount hk hc)
  obtain ⟨lq, cq⟩ := @roundOf_doubleDraw k byes seed hk _
    (round_le_of_lt_doubleCount hk hqc)
  rw [hL.arrival_eq hp hl]
  simp only [Bracket.preferred, preferredSide, lp, lq, cp, cq]
  obtain ⟨j, i⟩ := p
  obtain ⟨j', i'⟩ := q
  dsimp only at hc hqc ⊢
  cases lk with
  | next =>
    simp only [reduceCtorEq, false_and, if_false]
    simp only [doubleLink] at hl
    split at hl
    · next hn =>
      -- a winners round into the next, half its size
      cases hl
      have hc2 := count_eq_two_mul (rfl : 2 ^ k = 2 ^ k) (show j + 2 ≤ k by omega)
      have hpos : 0 < 2 ^ k / 2 ^ (j + 2) :=
        Nat.div_pos (Nat.pow_le_pow_right (by omega) (by omega)) (Nat.two_pow_pos _)
      simp only [doubleLane_winners (show j < k by omega), doubleLane_winners hn, reduceCtorEq,
        false_and, if_false, doubleCount_winners (show j < k by omega), doubleCount_winners hn,
        doubleSide, if_pos hn, show j + 1 + 1 = j + 2 by omega, Option.some.injEq]
      rw [if_pos (by omega)]
    · next hw =>
      split at hl
      · next hn =>
        -- a losers round into the next, of the same size or half of it
        cases hl
        simp only [doubleLane_losers hn.1 (by omega), doubleLane_losers (by omega) hn.2,
          reduceCtorEq, and_false, if_false, doubleCount_losers hn.1 (by omega),
          doubleCount_losers (by omega) hn.2, show j + 1 - k + 1 = j - k + 1 + 1 by omega,
          losersCount_lt_iff (show j - k + 3 < 2 * k by omega), doubleSide, if_neg hw, if_pos hn,
          Option.some.injEq]
      · next hl' =>
        split at hl
        · next hn =>
          cases hl
          by_cases hwin : j < k
          · simp [doubleLane_final hk le_rfl, doubleLane_winners hwin, doubleSide, hw, hl', hwin]
          · simp [doubleLane_final hk le_rfl, doubleLane_losers (by omega) hn, doubleSide, hw, hl',
              hwin]
        · cases hl
  | loserNext =>
    by_cases h1 : k = 1
    · -- no losers rounds: the loser of the only winners match plays the grand final again, on
      -- the side its winner does not take
      subst h1
      have hj : j = 0 := by
        simp only [doubleLink] at hl
        split at hl
        · omega
        · split at hl
          · assumption
          · split at hl
            · omega
            · cases hl
      subst hj
      obtain rfl := index_eq_zero_of_last rfl hc
      simp only [doubleLink, if_true, Option.some.injEq, Pos.mk.injEq] at hl
      obtain ⟨rfl, rfl⟩ := hl
      rfl
    · have hne := doubleLink_next_ne (show 2 ≤ k by omega) hl
      simp only [hne, and_false, if_false]
      simp only [doubleLink] at hl
      split at hl
      · next hn =>
        -- the winners final: its loser meets the winner of the losers rounds
        cases hl
        obtain rfl := index_eq_zero_of_last hn hc
        have hcp : doubleCount k j = 1 := by
          rw [doubleCount_winners (by omega), Nat.pow_div (by omega) (by omega),
            show k - (j + 1) = 0 by omega, Nat.pow_zero]
        have hcq : doubleCount k (3 * k - 3) = 1 := by
          rw [doubleCount_losers (by omega) (by omega), show 3 * k - 3 - k = 2 * k - 3 by omega,
            losersCount_last (by omega)]
        simp only [doubleLane_losers (show k ≤ 3 * k - 3 by omega) (by omega),
          doubleLane_winners (show j < k by omega), Option.some.injEq, reduceCtorEq, if_false,
          and_self, if_true, hcp, hcq, gt_iff_lt, Nat.lt_irrefl, doubleSide,
          show ¬(j = 0 ∧ 1 < k) by omega]
      · next hn =>
        split at hl
        · next h0 =>
          -- the first round: two losers share a losers match
          cases hl
          subst h0
          have hc2 := losersCount_first (show 2 ≤ k by omega)
          have hpos := losersCount_pos (k := k) (l := 0) (by omega)
          simp only [doubleLane_losers (show k ≤ k by omega) (by omega),
            doubleLane_winners (show 0 < k by omega), Option.some.injEq, reduceCtorEq, if_false,
            and_self, if_true, doubleCount_winners (show 0 < k by omega),
            doubleCount_losers (show k ≤ k by omega) (show k < 3 * k - 2 by omega), Nat.sub_self,
            doubleSide, show 0 = 0 ∧ 1 < k by omega]
          rw [if_pos (by omega)]
        · next h0 =>
          split at hl
          · next hw =>
            -- a later round: each loser meets a survivor of the losers rounds
            cases hl
            have hc2 := losersCount_drop (Nat.pos_of_ne_zero h0) hw
            simp only [doubleLane_losers (show k ≤ k + 2 * j - 1 by omega) (by omega),
              doubleLane_winners hw, Option.some.injEq, reduceCtorEq, if_false, and_self, if_true,
              doubleCount_winners hw, doubleCount_losers (show k ≤ k + 2 * j - 1 by omega) (by omega),
              show k + 2 * j - 1 - k = 2 * j - 1 by omega, hc2, gt_iff_lt, Nat.lt_irrefl, doubleSide,
              show ¬(j = 0 ∧ 1 < k) by omega]
          · cases hl

/-- **Generated double elimination is wired.** A winners round feeds the next by parity, and its
losers drop into the losers rounds: in pairs from the first round, else each to the second side
of a losers match whose first side a survivor of the losers rounds takes. The grand final takes
the winners bracket's winner on its first side. -/
theorem wired_doubleDraw (hk : 1 ≤ k) : (doubleDraw k byes seed).Wired := by
  have hL := @laid_doubleDraw k byes seed hk
  refine hL.wired (doubleSource k) fun p hp lk q hl => ?_
  rw [arrival_doubleDraw hk hp hl]
  exact doubleSource_doubleLink hk ((mem_doubleDraw hk).1 hp) hl

/-- **Generated double elimination is fresh**: wired, its byes first in the first round, and
nothing played. -/
theorem fresh_doubleDraw (n : Nat) (hk : 1 ≤ k) :
    (doubleDraw k (2 ^ k - n) seed).Fresh n (2 ^ k / 2) where
  wired := wired_doubleDraw hk
  format_ne := by simp [doubleDraw]
  width_pos := Nat.div_pos (Nat.le_self_pow (by omega) 2) (by omega)
  first := by
    obtain ⟨-, c⟩ := @roundOf_doubleDraw k (2 ^ k - n) seed hk _
      (show 0 ≤ 3 * k - 2 by omega)
    obtain ⟨r, hr⟩ : ∃ r, (doubleLadder k (2 ^ k - n))[0]? = some r :=
      Option.isSome_iff_exists.1 (by simp [length_doubleLadder])
    simp only [Bracket.roundOf, doubleDraw, hr, Option.getD_some, doubleCount_winners hk,
      Nat.zero_add, Nat.pow_one] at c
    simp [doubleDraw, hr, c]
  blank p hp := by
    have hbyes : 2 * (2 ^ k / 2) - n = 2 ^ k - n := by
      rw [Nat.mul_div_cancel' (Nat.dvd_of_mod_eq_zero (Nat.two_pow_mod_two_eq_zero.2 (by omega)))]
    rw [game_doubleDraw hk hp, hbyes, doubleMatch]
    split
    · simp [Match.Blank, doubleGame, winnersGame]
    · next hw =>
      have : ¬(p.round = 0 ∧ p.index < 2 ^ k - n) := fun h => hw (by omega)
      split <;> simp [Match.Blank, losersGame, finalGame, if_neg this]

end Double

/-- Generated double elimination, for any count of two teams or more, is fresh. -/
theorem fresh_doubleElimination {n : Int} (hn : 2 ≤ n) {seed : Value} {b : Bracket}
    (h : doubleElimination (.int n) seed = .ok b) : ∃ width, b.Fresh n.toNat width := by
  rw [doubleElimination_int hn] at h
  cases h
  exact ⟨_, fresh_doubleDraw n.toNat (Shape.one_le_ceilLog2 (by omega))⟩

end Generate

end TournamentDraw
