import TournamentDraw.Proofs.FirstRound
import TournamentDraw.Proofs.SingleDraw

/-!
# The knockout stage seeded from group tables

The knockout stage of a group competition is a single elimination draw for the qualifiers
`qualifiedTeams T a` of the group tables `T`, built fresh, filled from the tables and cleared
of byes. Tables can be crossed (`Crossable`) when there is an even number of at least two
groups, two qualifiers from each, every group has two teams or more and the qualifiers are a
power of two: then each group winner meets the runner-up of its neighbouring group. Otherwise
the qualifiers are placed as seeds in `seedOrder`, the group winners first.

Which of the two the draw takes is decided on the fresh first round having no bye; that this
is the power-of-two condition rests on the binary64 logarithm that sizes the draw being the
true one, which holds for every count below `2 ^ 40` (`Shape.pow_ceilLog2_bounds`).

Main statement: `seedsQualifiers_of_exec`, that a seeding that goes through leaves a knockout
for the qualifiers whose first round holds each of them once (`SeedsQualifiers`).
-/

namespace TournamentDraw

namespace Shape

theorem roundHalfEven_one (x : Nat) : Binary64.roundHalfEven x 1 = x := by
  simp [Binary64.roundHalfEven, Nat.mod_one]

/-- A count below `2 ^ 52` is held exactly, scaled to a 53-bit significand. -/
theorem ofInt_mant_of_lt {n : Nat} (h : 2 ≤ n) (hlt : n < 2 ^ 52) :
    (Binary64.ofInt n).mant = ((n * 2 ^ (52 - Nat.log2 n) : Nat) : Int) := by
  have hn : n ≠ 0 := by omega
  have hL : Nat.log2 n < 52 := (Nat.log2_lt hn).2 hlt
  have he : max ((Nat.log2 n : Int) - ↑(Binary64.precision - 1)) Binary64.minExp =
      (Nat.log2 n : Int) - 52 := by
    simp [Binary64.precision, Binary64.minExp]
    omega
  have hp : Binary64.powTwo ((Nat.log2 n : Int) - 52) = (1, 2 ^ (52 - Nat.log2 n)) := by
    simp only [Binary64.powTwo, if_neg (show ¬(0 : Int) ≤ (Nat.log2 n : Int) - 52 by omega)]
    congr
    omega
  simp only [Binary64.ofInt, Binary64.ofFraction, Binary64.ofNatFraction, Int.natAbs_natCast,
    Int.natAbs_one, floorLog2_one hn, he, hp]
  have hsign : ((n : Int) < 0) = ((1 : Int) < 0) := by simp
  rw [if_pos hsign, if_neg (by omega)]
  simp [roundHalfEven_one]

/-- **The binary64 logarithm is exact on counts below `2 ^ 40`.** A draw for such a count has
room for every team, and fewer than twice as many places as teams. -/
theorem pow_ceilLog2_bounds {n : Nat} (h : 2 ≤ n) (hlt : n < 2 ^ 40) :
    n ≤ 2 ^ ceilLog2 n ∧ 2 ^ ceilLog2 n < 2 * n := by
  have hn : n ≠ 0 := by omega
  set L := Nat.log2 n
  have hlo : 2 ^ L ≤ n := Nat.log2_self_le hn
  have hhi : n < 2 ^ (L + 1) := Nat.lt_log2_self
  have hL : L < 40 := (Nat.log2_lt hn).2 hlt
  have hL1 : 1 ≤ L := (Nat.le_log2 hn).2 (by simpa using h)
  have hover : ¬Double.overflowBound ≤ n := by
    have : (2 : Nat) ^ 40 < Double.overflowBound := by decide +kernel
    omega
  -- the significand is the count shifted up to 53 bits
  have hsplit : 2 ^ L * 2 ^ (52 - L) = 2 ^ 52 := by
    rw [← Nat.pow_add, show L + (52 - L) = 52 by omega]
  have hm : (Binary64.ofInt n).mant.toNat = n * 2 ^ (52 - L) := by
    rw [ofInt_mant_of_lt h (by omega), Int.toNat_natCast]
  have hmlo : 2 ^ 52 ≤ n * 2 ^ (52 - L) := hsplit ▸ Nat.mul_le_mul_right _ hlo
  have hmhi : n * 2 ^ (52 - L) < 2 ^ 53 := by
    calc n * 2 ^ (52 - L) < 2 ^ (L + 1) * 2 ^ (52 - L) :=
          Nat.mul_lt_mul_of_pos_right hhi (Nat.two_pow_pos _)
      _ = 2 ^ 53 := by rw [← Nat.pow_add, show L + 1 + (52 - L) = 53 by omega]
  have hlogm : Nat.log2 (n * 2 ^ (52 - L)) = 52 :=
    (Nat.log2_eq_iff (by omega)).2 ⟨hmlo, hmhi⟩
  have hk : (((52 : Nat) : Int) + (Binary64.ofInt n).exp).toNat = L := by
    rw [(ofInt_exp_mant h).1]
    omega
  unfold ceilLog2 ceilLog2Finite
  rw [if_neg hover]
  dsimp only
  rw [hm, hlogm, hk]
  by_cases hpow : n * 2 ^ (52 - L) = 2 ^ 52
  · -- a power of two takes its own exponent
    have hnL : n = 2 ^ L :=
      Nat.eq_of_mul_eq_mul_right (Nat.two_pow_pos _) (hpow.trans hsplit.symm)
    rw [if_pos hpow]
    refine ⟨hnL.le, ?_⟩
    omega
  · -- any other count is above `2 ^ L` by a whole unit, far above what rounds down onto `L`
    have hnL : 2 ^ L < n := lt_of_le_of_ne hlo fun h' => hpow (h' ▸ hsplit)
    have hj : 2 ^ 13 ≤ n * 2 ^ (52 - L) - 2 ^ 52 := by
      have h13 : 2 ^ 13 ≤ 2 ^ (52 - L) := Nat.pow_le_pow_right (by omega) (by omega)
      have : (2 ^ L + 1) * 2 ^ (52 - L) ≤ n * 2 ^ (52 - L) := Nat.mul_le_mul_right _ hnL
      rw [Nat.add_mul, hsplit, Nat.one_mul] at this
      omega
    have hlogL : 2 ^ Nat.log2 L ≤ 2 ^ 5 :=
      Nat.pow_le_pow_right (by omega) (Nat.lt_succ_iff.1 ((Nat.log2_lt (by omega)).2 (by omega)))
    have hln2 : ln2Num < ln2Den := by unfold ln2Num ln2Den; norm_num
    have hnot : ¬2 * (n * 2 ^ (52 - L) * 2 ^ (52 - 52) - 2 ^ 52) * ln2Den <
        ln2Num * 2 ^ Nat.log2 L := by
      rw [Nat.sub_self, Nat.pow_zero, Nat.mul_one, not_lt]
      calc ln2Num * 2 ^ Nat.log2 L ≤ ln2Den * 2 ^ 5 := Nat.mul_le_mul hln2.le hlogL
        _ ≤ 2 * (n * 2 ^ (52 - L) - 2 ^ 52) * ln2Den := by
          rw [Nat.mul_comm ln2Den]
          exact Nat.mul_le_mul_right _ (by omega)
    rw [if_neg hpow, if_neg hnot, Nat.pow_succ]
    omega

/-- Between `q` and `2 q` the only power of two that `q` can be is the one it lies under. -/
theorem exists_eq_two_pow_iff {q K : Nat} (h₁ : q ≤ 2 ^ K) (h₂ : 2 ^ K < 2 * q) :
    (∃ m, q = 2 ^ m) ↔ q = 2 ^ K := by
  constructor
  · rintro ⟨m, rfl⟩
    have hle : m ≤ K := (Nat.pow_le_pow_iff_right (show 1 < 2 by omega)).1 h₁
    have hlt : K < m + 1 :=
      (Nat.pow_lt_pow_iff_right (show 1 < 2 by omega)).1 (by rw [Nat.pow_succ]; omega)
    rw [show m = K by omega]
  · exact fun h => ⟨K, h⟩

/-- The count of rounds is the one power of two between the count of teams and its double. -/
theorem ceilLog2_eq_of_bounds {n k : Nat} (hn : 2 ≤ n) (hsmall : n < 2 ^ 40) (hlo : n ≤ 2 ^ k)
    (hhi : 2 ^ k < 2 * n) : ceilLog2 n = k := by
  obtain ⟨hlo', hhi'⟩ := pow_ceilLog2_bounds hn hsmall
  -- two powers of two in `[n, 2 n)` are one
  rcases Nat.lt_trichotomy (ceilLog2 n) k with h | h | h
  · have : 2 * 2 ^ ceilLog2 n ≤ 2 ^ k := by
      rw [← pow_succ']
      exact Nat.pow_le_pow_right (by decide) h
    omega
  · exact h
  · have : 2 * 2 ^ k ≤ 2 ^ ceilLog2 n := by
      rw [← pow_succ']
      exact Nat.pow_le_pow_right (by decide) h
    omega

end Shape

/-- A single elimination draw is built only for two teams or more. -/
theorem Generate.two_le_of_singleElimination {n : Int} {tp seed : Value} {k : Bracket}
    (h : Generate.singleElimination (.int n) tp seed = .ok k) : 2 ≤ n := by
  by_contra hn
  have hlt : Relation.holds .lt (compare n 2) = true := by
    simp [Relation.holds, compare_lt_iff_lt]
    omega
  simp [Generate.singleElimination, Shape.knockout, Value.relate_int, hlt, bind, Except.bind,
    throw, throwThe, MonadExceptOf.throw] at h

/-- The teams of group tables, table after table. -/
def tableTeams (T : List (List Standing)) : List Value :=
  T.flatMap fun rows => rows.map (·.team)

/-- Group tables a knockout can be seeded from: ranked as `groupTable` ranks them, with no
team twice, each named by a nonempty text other than the bye. -/
structure Seedable (T : List (List Standing)) : Prop where
  ranked : Ranked T
  nodup : (tableTeams T).Nodup
  named : ∀ v ∈ tableTeams T, ∃ s, v = .str s ∧ s ≠ "" ∧ s ≠ byeTeam

/-- Group tables whose qualifiers are crossed: an even number of at least two groups, two
qualifiers from each, every group of two teams or more, and a power of two of qualifiers. -/
def Crossable (T : List (List Standing)) (a : Nat) : Prop :=
  2 ≤ T.length ∧ T.length % 2 = 0 ∧ a = 2 ∧ (∀ rows ∈ T, 2 ≤ rows.length) ∧
    ∃ m, (qualifiedTeams T a).length = 2 ^ m

/-- The knockout stage seeded from the tables `T`, `a` qualifiers from each: a single
elimination draw for the qualifiers, which its first round holds each once, against another
or against the bye that has passed it on. Crossable tables pair each group winner with the
runner-up of the neighbouring group: winners of groups `2 j` and `2 j + 1` meet the runners-up
of groups `2 j + 1` and `2 j`, in the two halves of the draw. Other tables are placed as seeds
in `seedOrder`. -/
structure SeedsQualifiers (T : List (List Standing)) (a : Nat) (tp seed : Value) (b : Bracket) :
    Prop where
  generated : ∃ k, Generate.singleElimination (.int (qualifiedTeams T a).length) tp seed = .ok k ∧
    b.skeleton = k.skeleton
  nodup : (qualifiedTeams T a).Nodup
  first : FirstRoundOf (qualifiedTeams T a) b
  crossed : Crossable T a → ∀ j, j < T.length / 2 →
    (placedIn T 0)[2 * j]? = some (b.game ⟨0, j⟩).team1 ∧
      (placedIn T 1)[2 * j + 1]? = some (b.game ⟨0, j⟩).team2 ∧
      (placedIn T 1)[2 * j]? = some (b.game ⟨0, T.length / 2 + j⟩).team1 ∧
      (placedIn T 0)[2 * j + 1]? = some (b.game ⟨0, T.length / 2 + j⟩).team2
  seeded : ¬Crossable T a → ∃ k c,
    Generate.singleElimination (.int (qualifiedTeams T a).length) tp seed = .ok k ∧
      Step.exec (Step.placeTeams (seedOrder T a)) k = (.ok (), c) ∧ b.rounds = c.rounds

section Tables

variable {T : List (List Standing)} {a : Nat}

theorem qualifiedTeams_sublist (T : List (List Standing)) (a : Nat) :
    (qualifiedTeams T a).Sublist (tableTeams T) :=
  List.Sublist.flatMap_right _ fun rows _ => (List.take_sublist a rows).map _

theorem length_qualifiedTeams (T : List (List Standing)) (a : Nat) :
    (qualifiedTeams T a).length = (T.map fun rows => min a rows.length).sum := by
  simp [qualifiedTeams, List.length_flatMap]

theorem length_placedIn {j : Nat} (h : ∀ rows ∈ T, j < rows.length) :
    (placedIn T j).length = T.length := by
  induction T with
  | nil => rfl
  | cons rows T ih =>
    have hj := h rows List.mem_cons_self
    rw [placedIn, List.filterMap_cons, List.getElem?_eq_getElem hj, Option.map_some]
    simp only [List.length_cons]
    rw [← ih fun rows' hr => h rows' (List.mem_cons_of_mem _ hr)]
    rfl

theorem exists_map_str {L : List Value} (h : ∀ v ∈ L, ∃ s, v = .str s) :
    ∃ ids : List String, L = ids.map .str := by
  induction L with
  | nil => exact ⟨[], rfl⟩
  | cons v L ih =>
    obtain ⟨s, rfl⟩ := h v List.mem_cons_self
    obtain ⟨ids, rfl⟩ := ih fun v' hv => h v' (List.mem_cons_of_mem _ hv)
    exact ⟨s :: ids, rfl⟩

namespace Seedable

variable (hT : Seedable T)
include hT

theorem nodup_qualified (a : Nat) : (qualifiedTeams T a).Nodup :=
  (qualifiedTeams_sublist T a).nodup hT.nodup

theorem named_qualified {a : Nat} {v : Value} (hv : v ∈ qualifiedTeams T a) :
    ∃ s, v = .str s ∧ s ≠ "" ∧ s ≠ byeTeam :=
  hT.named v ((qualifiedTeams_sublist T a).subset hv)

/-- A qualifier is a true value and not the bye. -/
theorem qualified_truthy {a : Nat} {v : Value} (hv : v ∈ qualifiedTeams T a) :
    v.truthy = true ∧ v.isNull = false ∧ v.eqv (.str byeTeam) = false := by
  obtain ⟨s, rfl, hs, hb⟩ := hT.named_qualified hv
  simp [Value.truthy, Value.isNull, Value.eqv, hs, hb]

/-- The seeds are distinct names, nonempty and other than the bye. -/
theorem seedOrder_ids (a : Nat) : ∃ ids : List String, seedOrder T a = ids.map .str ∧
    ids.Nodup ∧ ∀ s ∈ ids, s ≠ "" ∧ s ≠ byeTeam := by
  have hperm := seedOrder_perm T a
  obtain ⟨ids, hids⟩ := exists_map_str fun v hv => by
    obtain ⟨s, rfl, -⟩ := hT.named_qualified (hperm.subset hv)
    exact ⟨s, rfl⟩
  refine ⟨ids, hids, ?_, fun s hs => ?_⟩
  · have hnd := hperm.nodup_iff.2 (hT.nodup_qualified a)
    rw [hids] at hnd
    exact hnd.of_map _
  · have hv : Value.str s ∈ qualifiedTeams T a :=
      hperm.subset (hids ▸ List.mem_map_of_mem hs)
    obtain ⟨s', hs', h1, h2⟩ := hT.named_qualified hv
    cases hs'
    exact ⟨h1, h2⟩

end Seedable

end Tables

namespace Bracket

theorem game_eq_default {b : Bracket} {p : Pos} (h : p ∉ b.positions) : b.game p = default := by
  have hnone : b.matchAt? p = none := by
    rw [mem_positions, Option.not_isSome_iff_eq_none] at h
    exact h
  simp [game, hnone]

end Bracket

theorem Match.seated_team1 {teams : List Value} {byes i : Nat} (m : Match) :
    (m.seated teams byes i).team1 = m.team1 ∨ (m.seated teams byes i).team1 = .null ∨
      (m.seated teams byes i).team1 ∈ teams := by
  unfold Match.seated
  split
  · split
    · exact .inr (.inr (List.getElem_mem _))
    · exact .inl rfl
  · rcases Step.teamAt_mem (teams.drop byes) (i - byes : Nat) with h | h
    · exact .inr (.inl h)
    · exact .inr (.inr (List.mem_of_mem_drop h))

namespace FirstRoundOf

variable {Q : List Value} {b : Bracket}

/-- A first round filled with true teams faces no bye that is still to be passed on. -/
theorem byeWinner?_eq_none (h : FirstRoundOf Q b)
    (hQ : ∀ v ∈ Q, v.isNull = false ∧ v.eqv (.str byeTeam) = false) {i : Nat}
    (hi : (⟨0, i⟩ : Pos) ∈ b.positions) : (b.game ⟨0, i⟩).byeWinner? = none := by
  unfold Match.byeWinner?
  rcases h.paired i hi with ⟨h1, h2⟩ | ⟨-, -, hc, -⟩
  · simp [(hQ _ h1).1, (hQ _ h1).2, (hQ _ h2).1, (hQ _ h2).2]
  · simp [hc]

end FirstRoundOf

namespace Bracket.Fresh

variable {b : Bracket} {n w : Nat}

theorem head?_rounds (hF : b.Fresh n w) : ∃ first, b.rounds.head? = some first ∧
    first.games.length = w := by
  have h := hF.first
  rw [← List.head?_eq_getElem?] at h
  obtain ⟨first, hfirst, hlen⟩ := Option.map_eq_some_iff.1 h
  exact ⟨first, hfirst, hlen⟩

/-- Seating decides no first-round match. -/
theorem open_seatFirst (hF : b.Fresh n w) (teams : List Value) (i : Nat) :
    ((b.seatFirst teams).game ⟨0, i⟩).isCompleted = false := by
  by_cases hi : (⟨0, i⟩ : Pos) ∈ b.positions
  · exact (hF.unplayed_seatFirst teams hi).2.2
  · rw [Bracket.game_eq_default (by rw [positions_seatFirst]; exact hi)]
    rfl

/-- Seating names no bye on the first side of a match. -/
theorem team1_seatFirst_ne (hF : b.Fresh n w) {ids : List String}
    (hids : ∀ s ∈ ids, s ≠ "" ∧ s ≠ byeTeam) (i : Nat) :
    ((b.seatFirst (ids.map .str)).game ⟨0, i⟩).team1 ≠ .str byeTeam := by
  have hblank : (b.game ⟨0, i⟩).team1 ≠ .str byeTeam := by
    by_cases hi : (⟨0, i⟩ : Pos) ∈ b.positions
    · rw [(hF.blank _ hi).1]
      exact fun h => by cases h
    · rw [Bracket.game_eq_default hi]
      exact fun h => by cases h
  rw [hF.game_seatFirst]
  split
  · rcases @Match.seated_team1 (ids.map .str) (min (2 * w - n) w) i (b.game ⟨0, i⟩)
      with h | h | h
    · rw [h]
      exact hblank
    · rw [h]
      exact fun h' => by cases h'
    · obtain ⟨s, hs, hs'⟩ := List.mem_map.1 h
      rw [← hs']
      exact fun h' => (hids s hs).2 (Value.str.inj h')
  · exact hblank

theorem wired_crossed (hw : b.Wired) (pairs : List (Value × Value)) :
    (b.crossed w pairs).Wired :=
  wired_foldl_modifyAt (fun x : Nat × (Value × Value) => (⟨0, x.1⟩ : Pos))
    (fun x => Match.crossedWith x.2) (fun x => keepsLinks_crossedWith x.2) _ hw

theorem skeleton_crossed (pairs : List (Value × Value)) :
    (b.crossed w pairs).skeleton = b.skeleton :=
  skeleton_foldl_modifyAt (fun x : Nat × (Value × Value) => (⟨0, x.1⟩ : Pos))
    (fun x => Match.crossedWith x.2) (fun x => keepsLinks_crossedWith x.2) _ _

/-- Crossed pairs of true teams leave no bye to pass on. -/
theorem exec_resolveByes_crossed (hF : b.Fresh n w) (hw : w % 2 = 0)
    {W S : List Value} (hW : W.length = w) (hS : S.length = w)
    (hv : ∀ v ∈ W ++ S, v.truthy = true ∧ v.eqv (.str byeTeam) = false) :
    Step.exec Step.resolveByes (b.crossed w (Step.crossPairs W S w)) =
      (.ok (), b.crossed w (Step.crossPairs W S w)) := by
  have hfirst := hF.firstRoundOf_crossed hw hW hS hv
  have hQ : ∀ v ∈ W ++ S, v.isNull = false ∧ v.eqv (.str byeTeam) = false := fun v hv' =>
    ⟨Value.isNull_of_truthy (hv v hv').1, (hv v hv').2⟩
  refine exec_resolveByes_of_settled (wired_crossed hF.wired _) fun p hp => ?_
  obtain ⟨r, i⟩ := p
  by_cases hr : r = 0
  · subst hr
    exact hfirst.byeWinner?_eq_none hQ hp
  · -- a later round still stands blank, with no team on its first side
    rw [game_crossed_of_round_pos _ hF.length_roundOf_zero.ge hr]
    rw [positions_crossed] at hp
    unfold Match.byeWinner?
    simp [(hF.blank _ hp).1, Value.isNull]

end Bracket.Fresh

theorem Step.exec_bind_eq_ok {α β : Type} {x : Step α} {f : α → Step β} {b b'' : Bracket}
    {c : β} : Step.exec (x >>= f) b = (.ok c, b'') ↔
      ∃ a b', Step.exec x b = (.ok a, b') ∧ Step.exec (f a) b' = (.ok c, b'') := by
  rw [Step.exec_bind]
  rcases Step.exec x b with ⟨r, b'⟩
  cases r with
  | error e => simp
  | ok a =>
    constructor
    · intro h
      exact ⟨a, b', rfl, h⟩
    · rintro ⟨a', b₁, ⟨⟩, h⟩
      exact h

theorem Bracket.crossed_withRounds (b d : Bracket) (w : Nat) (pairs : List (Value × Value)) :
    ({ d with rounds := b.rounds } : Bracket).crossed w pairs =
      { d with rounds := (b.crossed w pairs).rounds } :=
  Bracket.foldl_modifyAt_withRounds _ _ _ b d

/-- A competition whose rounds are those of a draw the bye pass leaves as it is, is left as it
is too. -/
theorem exec_resolveByes_of_rounds {b c : Bracket}
    (hc : Step.exec Step.resolveByes c = (.ok (), c)) (hr : b.rounds = c.rounds) :
    Step.exec Step.resolveByes b = (.ok (), b) := by
  have h := Step.onRounds_resolveByes c b
  rw [hc, ← hr] at h
  exact h

section Seeding

variable {T : List (List Standing)} {a : Nat} {tp seed : Value} {k d saved : Bracket}
  {q w : Nat} {first : Round}

/-- On a fresh draw sized by an exact logarithm, the draw crosses the groups exactly when the
tables are crossable: no bye is left in the first round exactly when the qualifiers are a power
of two. -/
theorem crosses_iff_crossable (hF : k.Fresh q w) (hfirst : k.rounds.head? = some first)
    (hq : (qualifiedTeams T a).length = q) {K : Nat} (hK : 2 * w = 2 ^ K) (h₁ : q ≤ 2 ^ K)
    (h₂ : 2 ^ K < 2 * q) : Crosses T a first ↔ Crossable T a := by
  unfold Crosses Crossable
  rw [hF.any_isBye hfirst, hq, Shape.exists_eq_two_pow_iff h₁ h₂, decide_eq_false_iff_not, hK]
  constructor <;> rintro ⟨h1, h2, h3, h4, h5⟩ <;> exact ⟨h1, h2, h3, h4, by omega⟩

/-- **Crossed groups.** With no bye in the fresh first round, every group winner meets the
runner-up of the neighbouring group, and the bye pass that follows changes nothing. -/
theorem seedsQualifiers_crossed (hT : Seedable T) (hF : k.Fresh q w)
    (hk : Generate.singleElimination (.int (qualifiedTeams T a).length) tp seed = .ok k)
    (hq : (qualifiedTeams T a).length = q) (hroom : q ≤ 2 * w)
    (hfirst : k.rounds.head? = some first) (hlen : first.games.length = w)
    (hc : Crosses T a first) (hcross : Crossable T a)
    (hrun : Step.exec (do Step.seedGroups T (.int a); Step.resolveByes)
      { d with rounds := k.rounds } = (.ok (), saved)) :
    SeedsQualifiers T a tp seed saved := by
  have hc' := hc
  obtain ⟨-, heven, rfl, hrows, hbye⟩ := hc'
  -- two qualifiers from each group fill the first round without a bye
  have hqg : q = 2 * T.length := by
    rw [← hq, length_qualifiedTeams,
      List.map_congr_left fun rows hr => Nat.min_eq_left (hrows rows hr), List.map_const',
      List.sum_const_nat, Nat.mul_comm]
  have hfull : ¬q < 2 * w := by
    simpa [hF.any_isBye hfirst] using hbye
  have hwg : w = T.length := by omega
  have hW : (placedIn T 0).length = w := by
    rw [length_placedIn fun rows hr => by have := hrows rows hr; omega, hwg]
  have hS : (placedIn T 1).length = w := by
    rw [length_placedIn fun rows hr => by have := hrows rows hr; omega, hwg]
  have hperm := placedIn_perm_qualifiedTeams T
  have hv : ∀ v ∈ placedIn T 0 ++ placedIn T 1, v.truthy = true ∧ v.eqv (.str byeTeam) = false :=
    fun v hv' => ⟨(hT.qualified_truthy (hperm.subset hv')).1,
      (hT.qualified_truthy (hperm.subset hv')).2.2⟩
  have hw : w % 2 = 0 := by omega
  have hcrossed := hF.exec_resolveByes_crossed hw hW hS hv
  -- the run: the pairs crossed in, then a bye pass that changes nothing
  obtain ⟨u, b₁, hseed, hres⟩ := Step.exec_bind_eq_ok.1 hrun
  rw [Nat.cast_ofNat, exec_seedGroups_of_crosses hT.ranked
    (show ({ d with rounds := k.rounds } : Bracket).rounds.head? = some first from hfirst) hc,
    hlen, ← hwg, Bracket.crossed_withRounds, Prod.mk.injEq] at hseed
  obtain ⟨-, rfl⟩ := hseed
  set c := k.crossed w (Step.crossPairs (placedIn T 0) (placedIn T 1) w)
  rw [exec_resolveByes_of_rounds (b := { d with rounds := c.rounds }) hcrossed rfl,
    Prod.mk.injEq] at hres
  obtain ⟨-, rfl⟩ := hres
  have hgame : ∀ p, ({ d with rounds := c.rounds } : Bracket).game p = c.game p :=
    Bracket.game_of_rounds rfl
  refine ⟨⟨k, hk, ?_⟩, hT.nodup_qualified 2, ?_, fun _ j hj => ?_, fun h => absurd hcross h⟩
  · exact (Bracket.skeleton_of_rounds rfl).trans (Bracket.Fresh.skeleton_crossed _)
  · refine ((hF.firstRoundOf_crossed hw hW hS hv).of_rounds ?_).perm hperm
    rfl
  · simp only [hgame]
    rw [← hwg] at hj ⊢
    exact Bracket.crossed_pairs hF.length_roundOf_zero.ge hw hW hS (fun v hv' => (hv v hv').1) hj

/-- **Seeded groups.** Otherwise the qualifiers are placed as seeds in seed order and the byes
passed on, exactly as on the fresh draw alone; the bye pass that follows changes nothing. -/
theorem seedsQualifiers_seeded (hT : Seedable T) (ha : 1 ≤ a) (hF : k.Fresh q w)
    (hk : Generate.singleElimination (.int (qualifiedTeams T a).length) tp seed = .ok k)
    (hq : (qualifiedTeams T a).length = q) (hwq : w ≤ q) (hroom : q ≤ 2 * w)
    (hfirst : k.rounds.head? = some first) (hc : ¬Crosses T a first) (hcross : ¬Crossable T a)
    (hfmt : d.format ≠ .groupsOnly)
    (hrun : Step.exec (do Step.seedGroups T (.int a); Step.resolveByes)
      { d with rounds := k.rounds } = (.ok (), saved)) :
    SeedsQualifiers T a tp seed saved := by
  obtain ⟨ids, hids, hnd, hnamed⟩ := hT.seedOrder_ids a
  have hlen : ids.length = q := by
    rw [← hq, ← (seedOrder_perm T a).length_eq, hids, List.length_map]
  have hlen' : (ids.map Value.str).length = q := by rw [List.length_map, hlen]
  -- on the fresh draw alone the seeds are seated and the byes passed on
  obtain ⟨c, hpass, hcl⟩ := Clearing.resolveByes (hF.routed_seatFirst hnd hnamed hlen hroom)
    (hF.open_seatFirst _) (hF.team1_seatFirst_ne hnamed)
  have hsettled : Step.exec Step.resolveByes c = (.ok (), c) :=
    exec_resolveByes_of_settled hcl.routed.wired fun p hp => hcl.byeWinner?_eq_none hp
  -- beside the group stage they leave the same rounds, which the last bye pass keeps
  obtain ⟨u, b₁, hseed, hres⟩ := Step.exec_bind_eq_ok.1 hrun
  rw [exec_seedGroups_of_not_crosses hT.ranked ha
    (show ({ d with rounds := k.rounds } : Bracket).rounds.head? = some first from hfirst) hc,
    hids] at hseed
  have hr₁ : b₁.rounds = c.rounds := by
    have h := hF.exec_placeTeams_withRounds hlen' hroom hpass (d := d) hfmt
    rwa [hseed] at h
  rw [exec_resolveByes_of_rounds hsettled hr₁, Prod.mk.injEq] at hres
  obtain ⟨-, rfl⟩ := hres
  refine ⟨⟨k, hk, ?_⟩, hT.nodup_qualified a, ?_, fun h => absurd h hcross, fun _ => ?_⟩
  · exact (Bracket.skeleton_of_rounds hr₁).trans
      (hcl.skeleton_eq.trans (Bracket.Fresh.skeleton_seatFirst _))
  · exact ((hF.firstRoundOf_clearing hnamed hlen hwq hroom hcl).of_rounds hr₁).perm
      (hids ▸ seedOrder_perm T a)
  · refine ⟨k, c, hk, ?_, hr₁⟩
    rw [hids]
    exact hF.exec_placeTeams_of_le hlen' hroom hpass hcl.routed.wired.fixtures_eq

/-- **The knockout stage seeds exactly the qualifiers.** Seeding group tables of distinct
named teams, `a ≥ 1` from each, into the fresh single elimination draw for the qualifiers, on a
competition of any format but the group stage alone, leaves a knockout for the qualifiers whose
first round holds each once: crossed when the tables are crossable, placed as seeds in seed
order otherwise. The number of qualifiers is one for which the draw's logarithm is exact, as
every number below `2 ^ 40` is (`Shape.pow_ceilLog2_bounds`). -/
theorem seedsQualifiers_of_exec (hT : Seedable T) (ha : 1 ≤ a)
    (hlo : (qualifiedTeams T a).length ≤ 2 ^ Shape.ceilLog2 (qualifiedTeams T a).length)
    (hhi : 2 ^ Shape.ceilLog2 (qualifiedTeams T a).length < 2 * (qualifiedTeams T a).length)
    (hk : Generate.singleElimination (.int (qualifiedTeams T a).length) tp seed = .ok k)
    (hfmt : d.format ≠ .groupsOnly)
    (hrun : Step.exec (do Step.seedGroups T (.int a); Step.resolveByes)
      { d with rounds := k.rounds } = (.ok (), saved)) :
    SeedsQualifiers T a tp seed saved := by
  obtain ⟨q, hq⟩ : ∃ q, (qualifiedTeams T a).length = q := ⟨_, rfl⟩
  rw [hq] at hlo hhi
  have hq2 : 2 ≤ q := by
    have := Generate.two_le_of_singleElimination hk
    omega
  -- the draw is the fresh one for `q` teams over `2 ^ K` places, `K` the exact logarithm
  obtain ⟨K, hKq⟩ : ∃ K, Shape.ceilLog2 q = K := ⟨_, rfl⟩
  have hK : 1 ≤ K := hKq ▸ Shape.one_le_ceilLog2 hq2
  have hdraw := hk
  rw [hq, Generate.singleElimination_int (by omega), Int.toNat_natCast, hKq,
    Except.ok.injEq] at hdraw
  have hF : k.Fresh q (2 ^ K / 2) := hdraw ▸ Generate.fresh_singleDraw q hK fun h => by
    rw [Bool.and_eq_true, decide_eq_true_eq] at h
    exact h.2
  have h2w : 2 * (2 ^ K / 2) = 2 ^ K := by
    obtain ⟨j, rfl⟩ : ∃ j, K = j + 1 := ⟨K - 1, by omega⟩
    rw [Nat.pow_succ]
    omega
  rw [hKq] at hlo hhi
  obtain ⟨first, hfirst, hlen⟩ := hF.head?_rounds
  have hiff := crosses_iff_crossable hF hfirst hq h2w hlo hhi
  by_cases hc : Crosses T a first
  · exact seedsQualifiers_crossed hT hF hk hq (by omega) hfirst hlen hc (hiff.1 hc) hrun
  · exact seedsQualifiers_seeded hT ha hF hk hq (by omega) (by omega) hfirst hc
      (mt hiff.2 hc) hfmt hrun

end Seeding

end TournamentDraw
