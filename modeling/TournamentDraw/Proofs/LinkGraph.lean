import TournamentDraw.Proofs.SingleDraw
import TournamentDraw.Proofs.DoubleDraw

/-!
# Generated knockout draws as link graphs

A generated knockout draw is a graph whose nodes are its matches and whose edges are their
links, the winner's and the loser's. This module proves that both generators build a
well-formed graph: matches named apart, rounds numbered from one, links leading to later
rounds, and every match past the first round fed by exactly two links (`LinkGraph`). Each
format then has its own shape: the sizes of its rounds, which matches send no winner on, and
which send their loser (`SingleShape`, `DoubleShape`).

The count of feeders rests on two facts. A wired draw sends at most one link to each side of a
match (`Wired.sides`), so at most two to a match (`Wired.card_feeders_le`). For at least two,
the tables of sources (`singleSource`, `doubleSource`) name a feeder for each side of every
match past the first round, and the two differ.
-/

open scoped BigOperators

namespace TournamentDraw

namespace Bracket

/-- The links that lead into the match at `q`, each a match and which of its two links. -/
def feeders (b : Bracket) (q : Pos) : Finset (Pos × Link) :=
  (b.positions ×ˢ {Link.next, Link.loserNext}).filter fun x => b.dest x.1 x.2 = some q

variable {b : Bracket} {q : Pos}

@[simp] theorem mem_feeders {x : Pos × Link} :
    x ∈ b.feeders q ↔ x.1 ∈ b.positions ∧ b.dest x.1 x.2 = some q := by
  obtain ⟨p, k⟩ := x
  cases k <;> simp [feeders]

/-- A wired draw sends at most one link to each side of a match, so at most two to a match. -/
theorem Wired.card_feeders_le (hw : b.Wired) (q : Pos) : (b.feeders q).card ≤ 2 := by
  have h : (b.feeders q).card ≤ ({Side.first, Side.second} : Finset Side).card := by
    refine Finset.card_le_card_of_injOn (fun x => b.arrival x.1 x.2) (fun x _ => ?_) ?_
    · show b.arrival x.1 x.2 ∈ ({Side.first, Side.second} : Finset Side)
      cases b.arrival x.1 x.2 <;> simp
    · intro x hx y hy hxy
      obtain ⟨h1, h2⟩ := hw.sides q x.1 x.2 y.1 y.2 (mem_feeders.1 hx).2 (mem_feeders.1 hy).2 hxy
      exact Prod.ext h1 h2
  simpa using h

/-- No link leads into the first round. -/
theorem Wired.feeders_first (hw : b.Wired) (hq : q.round = 0) : b.feeders q = ∅ := by
  refine Finset.eq_empty_of_forall_notMem fun x hx => ?_
  obtain ⟨hp, hd⟩ := mem_feeders.1 hx
  have := round_lt_of_dest hw hp hd
  omega

/-- Two links into a match of a wired draw are all of its feeders. -/
theorem Wired.feeders_eq_pair (hw : b.Wired) {x y : Pos × Link} (hx : x ∈ b.feeders q)
    (hy : y ∈ b.feeders q) (hxy : x ≠ y) : b.feeders q = {x, y} := by
  have hsub : {x, y} ⊆ b.feeders q := by
    intro z hz
    rcases Finset.mem_insert.1 hz with rfl | hz
    · exact hx
    · rw [Finset.mem_singleton.1 hz]
      exact hy
  exact (Finset.eq_of_subset_of_card_le hsub
    (by rw [Finset.card_pair hxy]; exact hw.card_feeders_le q)).symm

/-- A match with a different feeder for each side has exactly two. -/
theorem Wired.card_feeders_of_source (hw : b.Wired) (source : Side → Option (Pos × Link))
    (hsrc : ∀ s, ∃ x, source s = some x ∧ x ∈ b.feeders q)
    (hne : source .first ≠ source .second) : (b.feeders q).card = 2 := by
  obtain ⟨x, hx, hxf⟩ := hsrc .first
  obtain ⟨y, hy, hyf⟩ := hsrc .second
  have hxy : x ≠ y := fun h => hne (by rw [hx, hy, h])
  rw [hw.feeders_eq_pair hxf hyf hxy, Finset.card_pair hxy]

/-- A wired draw with a different feeder for each side of every match past the first round
feeds each of those by exactly two links. -/
theorem Wired.card_feeders_eq (hw : b.Wired) (source : Side → Option (Pos × Link))
    (hsrc : 0 < q.round → ∀ s, ∃ x, source s = some x ∧ x ∈ b.feeders q)
    (hne : 0 < q.round → source .first ≠ source .second) :
    (b.feeders q).card = if q.round = 0 then 0 else 2 := by
  split
  · next h0 =>
    rw [hw.feeders_first h0]
    rfl
  · next h0 =>
    exact hw.card_feeders_of_source source (hsrc (by omega)) (hne (by omega))

/-- Rounds numbered from one, one after another. -/
theorem numbers_eq_of_getElem? {rs : List Round}
    (h : ∀ j < rs.length, (rs[j]?).map Round.number = some (.int ((j + 1 : Nat) : Int))) :
    rs.map Round.number = (List.range rs.length).map fun j => .int ((j + 1 : Nat) : Int) := by
  refine List.ext_getElem? fun j => ?_
  rw [List.getElem?_map, List.getElem?_map]
  by_cases hj : j < rs.length
  · rw [h j hj, List.getElem?_range hj]
    rfl
  · rw [List.getElem?_eq_none (by omega), List.getElem?_eq_none (by simp; omega)]
    rfl

end Bracket

namespace Bracket.Laid

variable {b : Bracket} {name : Pos → String} {link : Pos → Link → Option Pos} {p q : Pos}

/-- A link of a laid-out draw is empty exactly where its table has none. -/
theorem target_eq_null_iff (h : b.Laid name link) (hp : p ∈ b.positions) (k : Link) :
    (b.game p).target k = .null ↔ link p k = none := by
  rw [h.target_eq p hp k]
  cases link p k <;> simp

theorem next_eq_null_iff (h : b.Laid name link) (hp : p ∈ b.positions) :
    (b.game p).next = .null ↔ link p .next = none :=
  h.target_eq_null_iff hp .next

theorem loserNext_ne_null_iff (h : b.Laid name link) (hp : p ∈ b.positions) :
    (b.game p).loserNext ≠ .null ↔ link p .loserNext ≠ none :=
  not_congr (h.target_eq_null_iff hp .loserNext)

theorem mem_feeders_iff (h : b.Laid name link) {x : Pos × Link} :
    x ∈ b.feeders q ↔ x.1 ∈ b.positions ∧ link x.1 x.2 = some q := by
  rw [mem_feeders]
  constructor
  · rintro ⟨hp, hd⟩
    exact ⟨hp, h.dest_eq hp x.2 ▸ hd⟩
  · rintro ⟨hp, hl⟩
    exact ⟨hp, (h.dest_eq hp x.2).trans hl⟩

end Bracket.Laid

namespace Bracket

/-- A knockout draw for `n` teams over `2 ^ R` places as a graph of matches and links. -/
structure LinkGraph (R n : Nat) (b : Bracket) : Prop where
  /-- No two matches share an id. -/
  ids_apart : ∀ p ∈ b.positions, ∀ q ∈ b.positions, (b.game p).id = (b.game q).id → p = q
  /-- The rounds are numbered one after another from one. -/
  numbered : b.rounds.map Round.number =
    (List.range b.rounds.length).map fun j => .int ((j + 1 : Nat) : Int)
  /-- Every link is empty or names a match of a later round. -/
  forward : ∀ p ∈ b.positions, ∀ k, (b.game p).target k = .null ∨
    ∃ q ∈ b.positions, (b.game q).id = (b.game p).target k ∧ p.round < q.round
  /-- Two links lead into every match past the first round, none into the first round. -/
  feeders : ∀ q ∈ b.positions, (b.feeders q).card = if q.round = 0 then 0 else 2
  /-- The first `2 ^ R - n` matches of the first round are byes, and nothing is played. -/
  blank : ∀ p ∈ b.positions, (b.game p).Blank (p.round = 0 ∧ p.index < 2 ^ R - n)

/-- The shape of single elimination of `R` rounds, with a third-place match after them when
`third` holds. -/
structure SingleShape (R : Nat) (third : Bool) (b : Bracket) : Prop where
  length_rounds : b.rounds.length = R + if third then 1 else 0
  /-- Round `j` (from 0) holds `2 ^ R / 2 ^ (j + 1)` matches. -/
  width : ∀ j < R, (b.roundOf j).games.length = 2 ^ R / 2 ^ (j + 1)
  /-- Only the final and the third-place match send no winner on. -/
  next_null : ∀ p ∈ b.positions, (b.game p).next = .null ↔ R ≤ p.round + 1
  /-- Only the semi-finals send their losers on, and only to a third-place match. -/
  loser_links : ∀ p ∈ b.positions, (b.game p).loserNext ≠ .null ↔ third = true ∧ p.round + 2 = R
  /-- The third-place match is alone in its round and takes the losers of both semi-finals. -/
  third_place : third = true → (b.roundOf R).games.length = 1 ∧
    b.feeders ⟨R, 0⟩ = {(⟨R - 2, 0⟩, .loserNext), (⟨R - 2, 1⟩, .loserNext)}

/-- The shape of double elimination of `R` winners rounds: `2 * R - 2` losers rounds and the
grand final. -/
structure DoubleShape (R : Nat) (b : Bracket) : Prop where
  length_rounds : b.rounds.length = R + (2 * R - 2) + 1
  lanes : ∀ j < b.rounds.length, (b.roundOf j).lane =
    if j < R then some .winners else if j < 3 * R - 2 then some .losers else some .grandFinal
  /-- Winners round `j` (from 0) holds `2 ^ R / 2 ^ (j + 1)` matches. -/
  width : ∀ j < R, (b.roundOf j).games.length = 2 ^ R / 2 ^ (j + 1)
  /-- Losers round `r` (from 1) holds `2 ^ R / 2 ^ (⌈r / 2⌉ + 1)` matches. -/
  losers_width : ∀ r, 1 ≤ r → r ≤ 2 * R - 2 →
    (b.roundOf (R + r - 1)).games.length = 2 ^ R / 2 ^ ((r + 1) / 2 + 1)
  final_width : (b.roundOf (3 * R - 2)).games.length = 1
  /-- Only the grand final sends no winner on. -/
  next_null : ∀ p ∈ b.positions, (b.game p).next = .null ↔ p.round = 3 * R - 2
  /-- Exactly the matches of the winners rounds send their losers on. -/
  loser_links : ∀ p ∈ b.positions, (b.game p).loserNext ≠ .null ↔ p.round < R

end Bracket

theorem two_mul_pow_div_two {k : Nat} (hk : 1 ≤ k) : 2 * (2 ^ k / 2) = 2 ^ k :=
  Nat.mul_div_cancel' (Nat.dvd_of_mod_eq_zero (Nat.two_pow_mod_two_eq_zero.2 (by omega)))

namespace Generate

theorem number_winnersRounds {pfx : String} {k size j : Nat} {build : Nat → List Match → Round}
    (hnum : ∀ r gs, (build r gs).number = .int r) (hj : j < k) :
    ((winnersRounds pfx build k size)[j]?).map Round.number = some (.int ((j + 1 : Nat) : Int)) := by
  rw [winnersRounds, getElem?_linkWinners, getElem?_base_winnersRounds hj, Option.map_some,
    Option.map_some]
  cases (numbered pfx (fun r => size / 2 ^ r) id build ((List.range k).map (· + 1)) 1)[j + 1]? <;>
    exact congrArg some (hnum _ _)

section Single

variable {k byes : Nat} {third : Bool} {tp seed : Value}

theorem number_singleLadder (hthird : third = true → 2 ≤ k) {j : Nat}
    (hj : j < (singleLadder k byes third).length) :
    ((singleLadder k byes third)[j]?).map Round.number = some (.int ((j + 1 : Nat) : Int)) := by
  have hW := fun (h : j < k) => @number_winnersRounds "match" k (2 ^ k) j (singleBuild byes k)
    (fun _ _ => rfl) h
  rw [length_singleLadder] at hj
  cases third with
  | false =>
    simp only [singleLadder, Bool.false_eq_true, if_false]
    exact hW (by simpa using hj)
  | true =>
    simp only [singleLadder, if_true]
    by_cases hjk : j < k
    · rw [List.getElem?_append_left (by simp; omega), List.getElem?_modify]
      split <;> simpa using hW hjk
    · obtain rfl : j = k := by simp at hj; omega
      rw [List.getElem?_append_right (by simp)]
      simp

/-- Each side of a match past the first round of single elimination is fed by the link its
source names: the winners of the two matches before it, or for the third-place match the
losers of the two semi-finals. -/
theorem singleSource_feeds (hthird : third = true → 2 ≤ k) {q : Pos}
    (hq : q ∈ (singleDraw k byes third tp seed).positions) (hr : 0 < q.round) (s : Side) :
    ∃ x, singleSource k q s = some x ∧ x ∈ (singleDraw k byes third tp seed).feeders q := by
  have hL := @laid_singleDraw k byes third tp seed hthird
  have hbit := s.bit_lt_two
  obtain ⟨j, i⟩ := q
  rcases (mem_singleDraw hthird).1 hq with ⟨hj, hi⟩ | ⟨ht, hj, hi⟩
  · dsimp only at hj hi hr
    -- the round before holds twice as many matches
    have hc := count_eq_two_mul (rfl : 2 ^ k = 2 ^ k) (show j - 1 + 2 ≤ k by omega)
    rw [show j - 1 + 2 = j + 1 by omega] at hc
    refine ⟨(⟨j - 1, 2 * i + s.bit⟩, .next), by simp [singleSource, hj, hr], ?_⟩
    rw [hL.mem_feeders_iff]
    refine ⟨(mem_singleDraw hthird).2 (.inl ⟨by dsimp only; omega, by dsimp only; omega⟩), ?_⟩
    simp only [singleLink, show j - 1 + 1 = j by omega, if_pos hj, Option.some.injEq,
      Pos.mk.injEq, true_and]
    omega
  · dsimp only at hj hi
    subst j i
    have hk := hthird ht
    have htwo : 2 ^ k / 2 ^ (k - 2 + 1) = 2 := by
      rw [Nat.pow_div (by omega) (by omega), show k - (k - 2 + 1) = 1 by omega, pow_one]
    refine ⟨(⟨k - 2, s.bit⟩, .loserNext), by simp [singleSource], ?_⟩
    rw [hL.mem_feeders_iff]
    refine ⟨(mem_singleDraw hthird).2 (.inl ⟨by dsimp only; omega, by dsimp only; omega⟩), ?_⟩
    simp [singleLink, ht, show k - 2 + 2 = k by omega]

theorem singleSource_ne {q : Pos} (hr : 0 < q.round) :
    singleSource k q .first ≠ singleSource k q .second := by
  unfold singleSource
  split_ifs <;> simp [Side.bit]

/-- **Every match of single elimination past the first round is fed by exactly two links.** -/
theorem card_feeders_singleDraw (hthird : third = true → 2 ≤ k) {q : Pos}
    (hq : q ∈ (singleDraw k byes third tp seed).positions) :
    ((singleDraw k byes third tp seed).feeders q).card = if q.round = 0 then 0 else 2 :=
  (wired_singleDraw hthird).card_feeders_eq (singleSource k q) (singleSource_feeds hthird hq)
    singleSource_ne

/-- The third-place match takes the losers of the two semi-finals. -/
theorem feeders_third (hthird : third = true → 2 ≤ k) (ht : third = true) :
    (singleDraw k byes third tp seed).feeders ⟨k, 0⟩ =
      {(⟨k - 2, 0⟩, .loserNext), (⟨k - 2, 1⟩, .loserNext)} := by
  have hq : (⟨k, 0⟩ : Pos) ∈ (singleDraw k byes third tp seed).positions :=
    (mem_singleDraw hthird).2 (.inr ⟨ht, rfl, rfl⟩)
  have hk := hthird ht
  obtain ⟨x, hx, hxf⟩ := singleSource_feeds hthird hq (by dsimp only; omega) .first
  obtain ⟨y, hy, hyf⟩ := singleSource_feeds hthird hq (by dsimp only; omega) .second
  simp only [singleSource, Nat.lt_irrefl, if_false, Side.bit, Option.some.injEq] at hx hy
  subst hx hy
  exact (@wired_singleDraw k byes third tp seed hthird).feeders_eq_pair hxf hyf (by simp)

/-- Every match of single elimination sends its winner on but the final and the third-place
match. -/
theorem next_eq_null_iff_single (hthird : third = true → 2 ≤ k) {p : Pos}
    (hp : p ∈ (singleDraw k byes third tp seed).positions) :
    ((singleDraw k byes third tp seed).game p).next = .null ↔ k ≤ p.round + 1 := by
  rw [(laid_singleDraw hthird).next_eq_null_iff hp]
  simp only [singleLink]
  split <;> simp <;> omega

/-- Only the semi-finals send their losers on, and only with a third-place match. -/
theorem loserNext_ne_null_iff_single (hthird : third = true → 2 ≤ k) {p : Pos}
    (hp : p ∈ (singleDraw k byes third tp seed).positions) :
    ((singleDraw k byes third tp seed).game p).loserNext ≠ .null ↔
      third = true ∧ p.round + 2 = k := by
  rw [(laid_singleDraw hthird).loserNext_ne_null_iff hp]
  simp only [singleLink]
  split <;> simp_all

theorem linkGraph_singleDraw (n : Nat) (hk : 1 ≤ k) (hthird : third = true → 2 ≤ k) :
    (singleDraw k (2 ^ k - n) third tp seed).LinkGraph k n where
  ids_apart := (wired_singleDraw hthird).unique
  numbered := Bracket.numbers_eq_of_getElem? fun _ hj => number_singleLadder hthird hj
  forward := (wired_singleDraw hthird).linked
  feeders _ hq := card_feeders_singleDraw hthird hq
  blank p hp := by
    simpa only [two_mul_pow_div_two hk] using (fresh_singleDraw n hk hthird).blank p hp

theorem singleShape_singleDraw (hthird : third = true → 2 ≤ k) :
    (singleDraw k byes third tp seed).SingleShape k third where
  length_rounds := length_singleLadder
  width _ hj := (roundOf_singleDraw hthird hj).2
  next_null _ hp := next_eq_null_iff_single hthird hp
  loser_links _ hp := loserNext_ne_null_iff_single hthird hp
  third_place ht := ⟨(roundOf_singleDraw_third hthird ht).2, feeders_third hthird ht⟩

end Single

/-- Every side of a match past the first round of double elimination is fed: the table's
source for it is a match of the draw whose link leads there. This is the converse of
`doubleSource_doubleLink`. -/
theorem doubleLink_doubleSource {k : Nat} (hk : 1 ≤ k) {q : Pos}
    (hq : q.index < doubleCount k q.round) (hr : 0 < q.round) (s : Side) :
    ∃ p lk, doubleSource k q s = some (p, lk) ∧ p.index < doubleCount k p.round ∧
      doubleLink k p lk = some q := by
  obtain ⟨j, i⟩ := q
  dsimp only at hq hr
  have hbit := s.bit_lt_two
  by_cases hw : j < k
  · -- a later winners round: the two matches before it, by parity
    have hc := count_eq_two_mul (rfl : 2 ^ k = 2 ^ k) (show j - 1 + 2 ≤ k by omega)
    rw [show j - 1 + 2 = j + 1 by omega, show j - 1 + 1 = j by omega] at hc
    rw [doubleCount_winners hw] at hq
    refine ⟨⟨j - 1, 2 * i + s.bit⟩, .next, by simp [doubleSource, hw, hr], ?_, ?_⟩
    · dsimp only
      rw [doubleCount_winners (by omega), show j - 1 + 1 = j by omega]
      omega
    · simp only [doubleLink, show j - 1 + 1 = j by omega, if_pos hw, Option.some.injEq,
        Pos.mk.injEq, true_and]
      omega
  by_cases hl : j < 3 * k - 2
  swap
  · -- the grand final: the winners final, and the losers final or with none the loser of the
    -- winners final again
    obtain ⟨rfl, rfl⟩ := final_of_lt_doubleCount hk (by omega) hq
    have hwf : doubleCount k (k - 1) = 1 := by
      rw [doubleCount_winners (by omega), show k - 1 + 1 = k by omega, Nat.div_self
        (Nat.two_pow_pos k)]
    cases s with
    | first =>
      refine ⟨⟨k - 1, 0⟩, .next, by simp [doubleSource, hw], by simp [hwf], ?_⟩
      simp [doubleLink, show ¬(k - 1 + 1 < k) by omega, show ¬(k ≤ k - 1) by omega,
        show k - 1 < 3 * k - 2 by omega]
    | second =>
      by_cases h1 : k = 1
      · subst h1
        exact ⟨⟨0, 0⟩, .loserNext, by simp [doubleSource], by simp [hwf], by simp [doubleLink]⟩
      · have hlf : doubleCount k (3 * k - 3) = 1 := by
          rw [doubleCount_losers (by omega) (by omega), show 3 * k - 3 - k = 2 * k - 3 by omega,
            losersCount_last (by omega)]
        refine ⟨⟨3 * k - 3, 0⟩, .next, by simp [doubleSource, hw, h1], by simp [hlf], ?_⟩
        simp [doubleLink, show ¬(3 * k - 3 + 1 < k) by omega,
          show ¬(3 * k - 3 + 1 < 3 * k - 2) by omega, show 3 * k - 3 < 3 * k - 2 by omega]
  rw [doubleCount_losers (by omega) hl] at hq
  by_cases hj : j = k
  · -- the first losers round: the losers of the first winners round, in pairs
    subst hj
    have hc := losersCount_first (show 2 ≤ j by omega)
    rw [Nat.sub_self] at hq
    refine ⟨⟨0, 2 * i + s.bit⟩, .loserNext, by simp [doubleSource, hl], ?_, ?_⟩
    · dsimp only
      rw [doubleCount_winners (by omega)]
      omega
    · simp only [doubleLink, show ¬(0 + 1 = j) by omega, if_false, if_true, Option.some.injEq,
        Pos.mk.injEq, true_and]
      omega
  by_cases hodd : (j - k) % 2 = 1
  · -- a round taking drops: the survivors of the losers round before it on the first side,
    -- the losers of a winners round on the second
    cases s with
    | first =>
      have hs := losersCount_succ (k := k) (l := j - k - 1) (by omega)
      rw [if_neg (by omega), Nat.one_mul, show j - k - 1 + 1 = j - 1 - k + 1 by omega,
        show j - 1 - k + 1 + 1 = j - k + 1 by omega] at hs
      refine ⟨⟨j - 1, i⟩, .next, by simp [doubleSource, hw, hl, hj, hodd], ?_, ?_⟩
      · dsimp only
        rw [doubleCount_losers (by omega) (by omega), hs]
        exact hq
      · simp only [doubleLink, show ¬(j - 1 + 1 < k) by omega, if_false,
          show k ≤ j - 1 ∧ j - 1 + 1 < 3 * k - 2 by omega, if_true,
          show ¬((j - 1 - k) % 2 = 1) by omega, Option.some.injEq, Pos.mk.injEq, and_true]
        omega
    | second =>
      have hd := losersCount_drop (k := k) (j := (j - k + 1) / 2) (by omega) (by omega)
      rw [show 2 * ((j - k + 1) / 2) - 1 = j - k by omega] at hd
      rw [hd] at hq
      have hq' : i < doubleCount k ((j - k + 1) / 2) := by
        rw [doubleCount_winners (by omega)]
        exact hq
      refine ⟨⟨(j - k + 1) / 2, i⟩, .loserNext, by simp [doubleSource, hw, hl, hj, hodd], hq', ?_⟩
      by_cases hlast : (j - k + 1) / 2 + 1 = k
      · -- the loser of the winners final drops into the losers final
        have hi0 := index_eq_zero_of_last hlast hq'
        simp only [doubleLink, if_pos hlast, if_neg (show k ≠ 1 by omega), Option.some.injEq,
          Pos.mk.injEq]
        omega
      · simp only [doubleLink, if_neg hlast, if_neg (show ¬((j - k + 1) / 2 = 0) by omega),
          if_pos (show (j - k + 1) / 2 < k by omega), Option.some.injEq, Pos.mk.injEq, and_true]
        omega
  · -- a halving round: the two matches of the round before it, by parity
    have hs := losersCount_succ (k := k) (l := j - k - 1) (by omega)
    rw [if_pos (by omega), show j - k - 1 + 1 = j - 1 - k + 1 by omega,
      show j - 1 - k + 1 + 1 = j - k + 1 by omega] at hs
    refine ⟨⟨j - 1, 2 * i + s.bit⟩, .next, by simp [doubleSource, hw, hl, hj, hodd], ?_, ?_⟩
    · dsimp only
      rw [doubleCount_losers (by omega) (by omega), hs]
      omega
    · simp only [doubleLink, show j - 1 + 1 = j by omega, if_neg hw,
        if_pos (show k ≤ j - 1 ∧ j < 3 * k - 2 by omega), if_pos (show (j - 1 - k) % 2 = 1 by omega),
        Option.some.injEq, Pos.mk.injEq, true_and]
      omega

section Double

variable {k byes : Nat} {seed : Value}

theorem number_losersLadder {l : Nat} (hl : l < 2 * k - 2) :
    ((losersLadder k)[l]?).map Round.number = some (.int ((l + 1 + k : Nat) : Int)) := by
  unfold losersLadder
  rw [List.getElem?_modify, getElem?_linkLosers, getElem?_losersBase hl]
  simp only [Option.map_eq_map, Option.map_some]
  split <;> cases (numbered "losers" (losersCount (2 ^ k)) (· + k) (loserBuild k)
    ((List.range (2 * k - 2)).map (· + 1)) (firstNumber (2 ^ k) k))[l + 1]? <;> rfl

theorem number_doubleLadder (hk : 1 ≤ k) {j : Nat} (hj : j < (doubleLadder k byes).length) :
    ((doubleLadder k byes)[j]?).map Round.number = some (.int ((j + 1 : Nat) : Int)) := by
  rw [length_doubleLadder] at hj
  unfold doubleLadder
  by_cases hw : j < k
  · have hW := @number_winnersRounds "winners" k (2 ^ k) j (doubleBuild byes k)
      (fun _ _ => rfl) hw
    rw [List.getElem?_append_left (by simp; omega), List.getElem?_append_left (by simp; omega),
      List.getElem?_map, List.getElem?_zipIdx, List.getElem?_modify]
    cases h : (winnersRounds "winners" (doubleBuild byes k) k (2 ^ k))[j]? with
    | none => simp [h] at hW
    | some R =>
      rw [h] at hW
      simp only [Option.map_some, Option.some.injEq] at hW
      simp only [Option.map_eq_map, Option.map_some, Option.some.injEq]
      split <;> exact hW
  · by_cases hl : j < 3 * k - 2
    · rw [List.getElem?_append_left (by simp; omega), List.getElem?_append_right (by simp; omega),
        List.length_map, List.length_zipIdx, List.length_modify, length_winnersRounds,
        number_losersLadder (by omega), show j - k + 1 + k = j + 1 by omega]
    · obtain rfl : j = k + (2 * k - 2) := by omega
      rw [List.getElem?_append_right (by simp)]
      simp [finalRound]

theorem doubleSource_ne (hk : 1 ≤ k) {q : Pos} (hr : 0 < q.round) :
    doubleSource k q .first ≠ doubleSource k q .second := by
  unfold doubleSource
  split_ifs <;> simp [Side.bit]
  -- the grand final beyond the smallest draw: the winners final and the losers final
  omega

/-- **Every match of double elimination past the first round is fed by exactly two links.** -/
theorem card_feeders_doubleDraw (hk : 1 ≤ k) {q : Pos}
    (hq : q ∈ (doubleDraw k byes seed).positions) :
    ((doubleDraw k byes seed).feeders q).card = if q.round = 0 then 0 else 2 := by
  refine (wired_doubleDraw hk).card_feeders_eq (doubleSource k q) (fun hr s => ?_)
    (doubleSource_ne hk)
  obtain ⟨p, lk, hs, hp, hl⟩ := doubleLink_doubleSource hk ((mem_doubleDraw hk).1 hq) hr s
  exact ⟨(p, lk), hs, (laid_doubleDraw hk).mem_feeders_iff.2 ⟨(mem_doubleDraw hk).2 hp, hl⟩⟩

/-- Every match of double elimination but the grand final sends its winner on. -/
theorem next_eq_null_iff_double (hk : 1 ≤ k) {p : Pos}
    (hp : p ∈ (doubleDraw k byes seed).positions) :
    ((doubleDraw k byes seed).game p).next = .null ↔ p.round = 3 * k - 2 := by
  have hr := round_le_of_lt_doubleCount hk ((mem_doubleDraw hk).1 hp)
  rw [(laid_doubleDraw hk).next_eq_null_iff hp]
  simp only [doubleLink]
  split_ifs <;> simp <;> omega

/-- Exactly the matches of the winners rounds send their losers on. -/
theorem loserNext_ne_null_iff_double (hk : 1 ≤ k) {p : Pos}
    (hp : p ∈ (doubleDraw k byes seed).positions) :
    ((doubleDraw k byes seed).game p).loserNext ≠ .null ↔ p.round < k := by
  rw [(laid_doubleDraw hk).loserNext_ne_null_iff hp]
  simp only [doubleLink]
  split_ifs <;> simp <;> omega

theorem linkGraph_doubleDraw (n : Nat) (hk : 1 ≤ k) :
    (doubleDraw k (2 ^ k - n) seed).LinkGraph k n where
  ids_apart := (wired_doubleDraw hk).unique
  numbered := Bracket.numbers_eq_of_getElem? fun _ hj => number_doubleLadder hk hj
  forward := (wired_doubleDraw hk).linked
  feeders _ hq := card_feeders_doubleDraw hk hq
  blank p hp := by
    simpa only [two_mul_pow_div_two hk] using (fresh_doubleDraw n hk).blank p hp

theorem doubleShape_doubleDraw (hk : 1 ≤ k) : (doubleDraw k byes seed).DoubleShape k where
  length_rounds := length_doubleLadder k byes
  lanes j hj := (roundOf_doubleDraw hk (by simp [doubleDraw, length_doubleLadder] at hj; omega)).1
  width j hj := (roundOf_doubleDraw hk (by omega)).2.trans (doubleCount_winners hj)
  losers_width r h1 h2 := by
    rw [(roundOf_doubleDraw hk (by omega)).2, doubleCount_losers (by omega) (by omega),
      show k + r - 1 - k + 1 = r - 1 + 1 by omega, losersCount_eq (by omega),
      Nat.pow_div (by omega) (by omega)]
    congr 1
    omega
  final_width := by
    rw [(roundOf_doubleDraw hk le_rfl).2, doubleCount, if_neg (by omega), if_neg (by omega),
      if_pos rfl]
  next_null _ hp := next_eq_null_iff_double hk hp
  loser_links _ hp := loserNext_ne_null_iff_double hk hp

end Double

end Generate

/-- **Generated knockout draws are well-formed link graphs.** For every count `n ≥ 2` of teams,
with `R` rounds over `2 ^ R` places as the generators compute it, single and double
elimination both generate a draw, and it names its matches apart, numbers its rounds from one,
links only forward, feeds every match past the first round by exactly two links, and puts the
byes first in the first round. Single elimination has a third-place match, fed by the losers of the semi-finals,
exactly when one is asked for and there are two rounds or more. -/
theorem generated_draws_are_link_graphs {n : Nat} (hn : 2 ≤ n) :
    (∀ tp seed, ∃ b, Generate.singleElimination (.int n) tp seed = .ok b ∧
      b.LinkGraph (Shape.ceilLog2 n) n ∧
        b.SingleShape (Shape.ceilLog2 n) (tp.truthy && decide (2 ≤ Shape.ceilLog2 n))) ∧
    (∀ seed, ∃ b, Generate.doubleElimination (.int n) seed = .ok b ∧
      b.LinkGraph (Shape.ceilLog2 n) n ∧ b.DoubleShape (Shape.ceilLog2 n)) := by
  have hk : 1 ≤ Shape.ceilLog2 n := Shape.one_le_ceilLog2 hn
  have hn' : (2 : Int) ≤ n := by exact_mod_cast hn
  refine ⟨fun tp seed => ?_, fun seed => ?_⟩
  · have hthird : (tp.truthy && decide (2 ≤ Shape.ceilLog2 n)) = true → 2 ≤ Shape.ceilLog2 n :=
      fun h => by simpa using (Bool.and_eq_true_iff.1 h).2
    refine ⟨_, Generate.singleElimination_int hn' tp seed, ?_⟩
    rw [Int.toNat_natCast]
    exact ⟨Generate.linkGraph_singleDraw n hk hthird, Generate.singleShape_singleDraw hthird⟩
  · refine ⟨_, Generate.doubleElimination_int hn' seed, ?_⟩
    rw [Int.toNat_natCast]
    exact ⟨Generate.linkGraph_doubleDraw n hk, Generate.doubleShape_doubleDraw hk⟩

theorem link_graphs_of_three_teams :
    2 ≤ 3 ∧
      (∀ tp seed, ∃ b, Generate.singleElimination (.int 3) tp seed = .ok b ∧
        b.LinkGraph (Shape.ceilLog2 3) 3 ∧
          b.SingleShape (Shape.ceilLog2 3) (tp.truthy && decide (2 ≤ Shape.ceilLog2 3))) ∧
      (∀ seed, ∃ b, Generate.doubleElimination (.int 3) seed = .ok b ∧
        b.LinkGraph (Shape.ceilLog2 3) 3 ∧ b.DoubleShape (Shape.ceilLog2 3)) :=
  ⟨by decide, generated_draws_are_link_graphs (by decide)⟩

end TournamentDraw
