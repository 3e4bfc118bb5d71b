import TournamentDraw.Proofs.Wiring
import TournamentDraw.Bracket.Generate

/-!
# Laying out a generated draw

The generators number their matches one after another, tag each number with the name of its
part of the draw (`tag`), and link each match to a later one by id. This module gives the
means to read such a draw as a table: a name for each place and the places its two links lead
to (`Bracket.Laid`). A draw laid out this way is wired as soon as no side of a match is reached
by two links, which `Laid.wired` asks in the form of a map from a match and a side back to the
link that arrives there.

It then reads what the generator's parts build: the numbered rounds, the byes of the first
round, the links from round to round, and the winners rounds that both knockout formats share
(`winnersGame`). Last come the two facts of the draw's size that every layout uses: a count of
two or more takes at least one round, and the rounds and places a count asks for.
-/

namespace TournamentDraw


/-- The id a generator gives the `n`-th match it tags with `pfx`. -/
def tag (pfx : String) (n : Nat) : String := s!"{pfx}_{n}"

/-- Decimal numerals name numbers one-to-one: reading the digits back gives the number. -/
theorem repr_inj {a b : Nat} (h : a.repr = b.repr) : a = b := by
  have := congrArg (fun s => Nat.ofDigitChars 10 s.toList 0) h
  simpa only [Nat.toList_repr, Nat.ofDigitChars_ten_toDigits] using this

theorem tag_inj {pfx : String} {a b : Nat} : tag pfx a = tag pfx b ↔ a = b := by
  constructor
  · intro h
    exact repr_inj ((String.append_right_inj _).1 h)
  · rintro rfl
    rfl

theorem tag_ne_empty (pfx : String) (n : Nat) : tag pfx n ≠ "" := by
  intro h
  have := congrArg String.length h
  simp [tag] at this

/-- Tags with prefixes that begin differently differ. -/
theorem tag_ne_tag {pfx pfx' : String} (hp : pfx ≠ "") (hp' : pfx' ≠ "")
    (hh : pfx.toList.head? ≠ pfx'.toList.head?) (a b : Nat) : tag pfx a ≠ tag pfx' b := by
  intro h
  obtain ⟨c, cs, hc⟩ := List.exists_cons_of_ne_nil (show pfx.toList ≠ [] by simpa using hp)
  obtain ⟨c', cs', hc'⟩ := List.exists_cons_of_ne_nil (show pfx'.toList ≠ [] by simpa using hp')
  have := congrArg (fun s => s.toList.head?) h
  simp only [tag, String.toList_append, toString, hc, hc', List.cons_append,
    List.head?_cons] at this
  rw [hc, hc'] at hh
  exact hh (by simpa using this)

/-- A list read off place by place has as many items as the places it answers at. -/
theorem length_eq_of_getElem? {α : Type} {l : List α} {c : Nat} {f : Nat → α}
    (h : ∀ i, l[i]? = if i < c then some (f i) else none) : l.length = c := by
  rcases Nat.lt_trichotomy l.length c with hlt | heq | hgt
  · have := h l.length
    rw [if_pos hlt, List.getElem?_eq_none le_rfl] at this
    cases this
  · exact heq
  · have := h c
    rw [if_neg (Nat.lt_irrefl c), List.getElem?_eq_getElem hgt] at this
    cases this

/-- The side a parity names: 0 the first, 1 the second. -/
def Side.bit : Side → Nat
  | .first => 0
  | .second => 1

theorem Side.bit_ofIndex (i : Nat) : (Side.ofIndex i).bit = i % 2 := by
  unfold Side.ofIndex
  split <;> simp [Side.bit] <;> omega

theorem Side.bit_lt_two (s : Side) : s.bit < 2 := by
  cases s <;> decide

/-- A match as a generator leaves it: no team but the bye on the second side of a bye match, no
result, not begun. -/
def Match.Blank (m : Match) (bye : Prop) [Decidable bye] : Prop :=
  m.team1 = .null ∧ m.team2 = (if bye then .str byeTeam else .null) ∧
    m.autoAdvance = (if bye then .bool true else .bool false) ∧
    m.winner = .null ∧ m.loser = .null ∧ m.status = .pending

namespace Bracket

/-- A knockout draw as a generator leaves it for `n` teams: wired, with a first round of
`width` matches whose first `2 * width - n` are byes, and every match blank. -/
structure Fresh (b : Bracket) (n width : Nat) : Prop where
  wired : b.Wired
  format_ne : b.format ≠ .groupsOnly
  width_pos : 0 < width
  first : (b.rounds[0]?).map (·.games.length) = some width
  blank : ∀ p ∈ b.positions, (b.game p).Blank (p.round = 0 ∧ p.index < 2 * width - n)

/-- A knockout draw laid out by a name for each place and a table of links: the match at each
place is named by its name, its links name the places the table gives, and those lie in
later rounds. -/
structure Laid (b : Bracket) (name : Pos → String) (link : Pos → Link → Option Pos) : Prop where
  fixtures_eq : b.fixtures = []
  groups_eq : b.groups = []
  games_ne : ∀ r ∈ b.rounds, r.games ≠ []
  id_eq : ∀ p ∈ b.positions, (b.game p).id = .str (name p)
  name_ne : ∀ p ∈ b.positions, name p ≠ ""
  name_inj : ∀ p ∈ b.positions, ∀ q ∈ b.positions, name p = name q → p = q
  target_eq : ∀ p ∈ b.positions, ∀ k,
    (b.game p).target k = ((link p k).map fun q => Value.str (name q)).getD .null
  link_mem : ∀ p ∈ b.positions, ∀ k q, link p k = some q → q ∈ b.positions ∧ p.round < q.round

namespace Laid

variable {b : Bracket} {name : Pos → String} {link : Pos → Link → Option Pos}

theorem named (h : b.Laid name link) : ∀ p ∈ b.positions, ∃ s, (b.game p).id = .str s ∧ s ≠ "" :=
  fun p hp => ⟨name p, h.id_eq p hp, h.name_ne p hp⟩

theorem unique (h : b.Laid name link) :
    ∀ p ∈ b.positions, ∀ q ∈ b.positions, (b.game p).id = (b.game q).id → p = q := by
  intro p hp q hq he
  rw [h.id_eq p hp, h.id_eq q hq, Value.str.injEq] at he
  exact h.name_inj p hp q hq he

theorem locate?_null (h : b.Laid name link) : b.locate? .null = none := by
  refine Option.eq_none_iff_forall_ne_some.2 fun q hq => ?_
  obtain ⟨hq, hid⟩ := (locate?_eq_some_iff_of_named h.named h.unique).1 hq
  rw [h.id_eq q hq] at hid
  cases hid

/-- A link leads where the table says. -/
theorem dest_eq (h : b.Laid name link) {p : Pos} (hp : p ∈ b.positions) (k : Link) :
    b.dest p k = link p k := by
  unfold dest
  rw [h.target_eq p hp k]
  cases hl : link p k with
  | none => exact h.locate?_null
  | some q =>
    exact (locate?_eq_some_iff_of_named h.named h.unique).2
      ⟨(h.link_mem p hp k q hl).1, h.id_eq q (h.link_mem p hp k q hl).1⟩

/-- The side a link arrives at, read off the table. -/
theorem arrival_eq (h : b.Laid name link) {p q : Pos} (hp : p ∈ b.positions) {k : Link}
    (hl : link p k = some q) :
    b.arrival p k = if k = .loserNext ∧ link p .next = some q then (b.preferred p q).other
      else b.preferred p q := by
  unfold arrival
  rw [h.dest_eq hp, h.dest_eq hp, hl]

theorem mem_of_dest (h : b.Laid name link) {p q : Pos} {k : Link} (hd : b.dest p k = some q) :
    p ∈ b.positions := by
  by_contra hp
  have hn : b.matchAt? p = none :=
    Option.not_isSome_iff_eq_none.1 fun h' => hp (mem_positions.2 h')
  have : (b.game p).target k = .null := by
    rw [game, hn]
    cases k <;> rfl
  rw [dest, this, h.locate?_null] at hd
  cases hd

/-- **A laid-out draw is wired** when every side of every match is reached by one link at
most: when the link and the side it arrives at give back where the link starts. -/
theorem wired (h : b.Laid name link) (source : Pos → Side → Option (Pos × Link))
    (hsource : ∀ p ∈ b.positions, ∀ k q, link p k = some q → source q (b.arrival p k) = some (p, k)) :
    b.Wired where
  fixtures_eq := h.fixtures_eq
  groups_eq := h.groups_eq
  games_ne := h.games_ne
  named := h.named
  unique := h.unique
  linked p hp k := by
    rw [h.target_eq p hp k]
    cases hl : link p k with
    | none => exact .inl rfl
    | some q =>
      obtain ⟨hq, hlt⟩ := h.link_mem p hp k q hl
      exact .inr ⟨q, hq, h.id_eq q hq, hlt⟩
  sides q p k p' k' hd hd' harr := by
    have hp := h.mem_of_dest hd
    have hp' := h.mem_of_dest hd'
    rw [h.dest_eq hp] at hd
    rw [h.dest_eq hp'] at hd'
    have e := (hsource p hp k q hd).symm.trans (harr ▸ hsource p' hp' k' q hd')
    simp only [Option.some.injEq, Prod.mk.injEq] at e
    exact e

end Laid

end Bracket

namespace Generate

variable {pfx : String} {count number : Nat → Nat} {build : Nat → List Match → Round}

/-- The matches `numbered` builds for round `r`, with id numbers from `base`. -/
def numberedGames (pfx : String) (count number : Nat → Nat) (r base : Nat) : List Match :=
  (List.range (count r)).map fun i =>
    { id := .str s!"{pfx}_{base + i}", round := .int (number r), number := .int (i + 1) }

theorem numbered_cons (r : Nat) (rs : List Nat) (k : Nat) :
    numbered pfx count number build (r :: rs) k =
      build r (numberedGames pfx count number r k) :: numbered pfx count number build rs (k + count r) :=
  rfl

@[simp] theorem length_numbered (rs : List Nat) (k : Nat) :
    (numbered pfx count number build rs k).length = rs.length := by
  induction rs generalizing k with
  | nil => rfl
  | cons r rs ih => simp [numbered_cons, ih]

theorem getElem?_numbered (rs : List Nat) (k j : Nat) :
    (numbered pfx count number build rs k)[j]? =
      rs[j]?.map fun r => build r (numberedGames pfx count number r (k + ((rs.take j).map count).sum)) := by
  induction rs generalizing k j with
  | nil => rfl
  | cons r rs ih =>
    cases j with
    | zero => simp [numbered_cons]
    | succ j =>
      rw [numbered_cons, List.getElem?_cons_succ, ih, List.getElem?_cons_succ, List.take_succ_cons,
        List.map_cons, List.sum_cons, Nat.add_assoc]

@[simp] theorem getElem?_numberedGames (r base i : Nat) :
    (numberedGames pfx count number r base)[i]? =
      if i < count r then
        some { id := .str s!"{pfx}_{base + i}", round := .int (number r), number := .int (i + 1) }
      else none := by
  by_cases hi : i < count r <;> simp [numberedGames, hi]

@[simp] theorem length_numberedGames (r base : Nat) :
    (numberedGames pfx count number r base).length = count r := by
  simp [numberedGames]

theorem getElem?_markByes (byes : Nat) (games : List Match) (i : Nat) :
    (markByes byes games)[i]? = games[i]?.map fun m =>
      if i < byes then { m with team2 := .str byeTeam, autoAdvance := .bool true } else m := by
  simp only [markByes, List.getElem?_map, List.getElem?_zipIdx, Option.map_map, Nat.zero_add]
  rfl

@[simp] theorem length_markByes (byes : Nat) (games : List Match) :
    (markByes byes games).length = games.length := by
  simp [markByes]

/-- A list of rounds linked pair by pair: each round but the last is linked by `f` to the
round after it. `linkWinners` and `linkLosers` both are. -/
theorem getElem?_of_pairwise {g : List Round → List Round} {f : Round → Round → Round}
    (hnil : g [] = []) (hone : ∀ r, g [r] = [r])
    (hcons : ∀ r₁ r₂ rest, g (r₁ :: r₂ :: rest) = f r₁ r₂ :: g (r₂ :: rest))
    (rs : List Round) (j : Nat) :
    (g rs)[j]? = rs[j]?.map fun r => (rs[j + 1]?).elim r (f r) := by
  induction rs generalizing j with
  | nil => simp [hnil]
  | cons r₁ tl ih =>
    cases tl with
    | nil => cases j <;> simp [hone]
    | cons r₂ rest =>
      cases j with
      | zero => simp [hcons]
      | succ j =>
        rw [hcons, List.getElem?_cons_succ, ih]
        simp only [List.getElem?_cons_succ]

theorem getElem?_linkWinners (rs : List Round) (j : Nat) :
    (linkWinners rs)[j]? = rs[j]?.map fun r => (rs[j + 1]?).elim r (linkPair r) :=
  getElem?_of_pairwise rfl (fun _ => rfl) (fun _ _ _ => rfl) rs j

theorem getElem?_linkLosers (rs : List Round) (j : Nat) :
    (linkLosers rs)[j]? = rs[j]?.map fun r => (rs[j + 1]?).elim r (linkLosersPair r) :=
  getElem?_of_pairwise rfl (fun _ => rfl) (fun _ _ _ => rfl) rs j

theorem length_of_pairwise {g : List Round → List Round} {f : Round → Round → Round}
    (hnil : g [] = []) (hone : ∀ r, g [r] = [r])
    (hcons : ∀ r₁ r₂ rest, g (r₁ :: r₂ :: rest) = f r₁ r₂ :: g (r₂ :: rest))
    (rs : List Round) : (g rs).length = rs.length := by
  induction rs with
  | nil => simp [hnil]
  | cons r₁ tl ih =>
    cases tl with
    | nil => simp [hone]
    | cons r₂ rest => simp [hcons, ih]

@[simp] theorem length_linkWinners (rs : List Round) : (linkWinners rs).length = rs.length :=
  length_of_pairwise rfl (fun _ => rfl) (fun _ _ _ => rfl) rs

@[simp] theorem length_linkLosers (rs : List Round) : (linkLosers rs).length = rs.length :=
  length_of_pairwise rfl (fun _ => rfl) (fun _ _ _ => rfl) rs

theorem getElem?_games_linkPair (cur nxt : Round) (i : Nat) :
    (linkPair cur nxt).games[i]? = cur.games[i]?.map fun m =>
      (nxt.games[i / 2]?).elim m fun t => { m with next := t.id } := by
  simp only [linkPair, List.getElem?_map, List.getElem?_zipIdx, Option.map_map, Nat.zero_add]
  congr 1
  funext m
  simp only [Function.comp_apply]
  cases nxt.games[i / 2]? <;> rfl

theorem getElem?_games_linkLosersPair (cur nxt : Round) (i : Nat) :
    (linkLosersPair cur nxt).games[i]? = cur.games[i]?.map fun m =>
      (nxt.games[if nxt.games.length < cur.games.length then i / 2 else i]?).elim m
        fun t => { m with next := t.id } := by
  simp only [linkLosersPair, List.getElem?_map, List.getElem?_zipIdx, Option.map_map,
    Nat.zero_add]
  congr 1
  funext m
  simp only [Function.comp_apply]
  split <;> rename_i h <;> simp [h]

theorem getElem?_games_routeLosers (total : Nat) (losers : List Round) (final : Round) (r : Nat)
    (w : Round) (i : Nat) :
    (routeLosers total losers final r w).games[i]? = w.games[i]?.map fun m =>
      let target := if r + 1 = total then losers.getLast?.getD final
        else if r = 0 then losers.headD final else losers.getD (2 * r - 1) final
      (target.games[min (i / if r = 0 then 2 else 1) (target.games.length - 1)]?).elim m
        fun t => { m with loserNext := t.id } := by
  simp only [routeLosers, List.getElem?_map, List.getElem?_zipIdx, Option.map_map, Nat.zero_add]
  congr 1
  funext m
  simp only [Function.comp_apply]
  split <;> rename_i h <;> simp only [h, Option.elim]

theorem getElem?_games_modifyFirst (r : Round) (f : Match → Match) (i : Nat) :
    (modifyFirst r f).games[i]? = if i = 0 then r.games[i]?.map f else r.games[i]? := by
  simp only [modifyFirst, List.getElem?_modify]
  by_cases hi : i = 0
  · subst hi
    simp
  · simp [hi, Ne.symm hi]

/-- The number of the first match of round `j` in a draw of `size` places, counted from one
across the rounds before, each of which holds half the matches of the one before it. -/
def firstNumber (size j : Nat) : Nat :=
  1 + ((List.range j).map fun j' => size / 2 ^ (j' + 1)).sum

theorem sum_range_add_le (c : Nat → Nat) {j j' : Nat} (h : j < j') :
    ((List.range j).map c).sum + c j ≤ ((List.range j').map c).sum := by
  induction j' with
  | zero => omega
  | succ j' ih =>
    rw [List.range_succ, List.map_append, List.sum_append, List.map_singleton, List.sum_singleton]
    rcases Nat.lt_succ_iff_lt_or_eq.1 h with h | h
    · exact le_trans (ih h) (Nat.le_add_right _ _)
    · subst h
      exact le_rfl

/-- Numbers handed out block after block, block `j` holding `c j` of them, tell the blocks and
the places within them apart. -/
theorem eq_of_sum_range_add_eq {c : Nat → Nat} {j j' i i' : Nat} (hi : j < j' → i < c j)
    (hi' : j' < j → i' < c j')
    (h : ((List.range j).map c).sum + i = ((List.range j').map c).sum + i') :
    j = j' ∧ i = i' := by
  rcases Nat.lt_trichotomy j j' with hlt | heq | hgt
  · have := sum_range_add_le c hlt
    have := hi hlt
    omega
  · subst heq
    exact ⟨rfl, by omega⟩
  · have := sum_range_add_le c hgt
    have := hi' hgt
    omega

/-- Places numbered round after round, each round after all the matches of the rounds before
it, get distinct numbers. -/
theorem eq_of_firstNumber_eq {size : Nat} {p q : Pos}
    (hp : p.round < q.round → p.index < size / 2 ^ (p.round + 1))
    (hq : q.round < p.round → q.index < size / 2 ^ (q.round + 1))
    (h : firstNumber size p.round + p.index = firstNumber size q.round + q.index) : p = q := by
  unfold firstNumber at h
  obtain ⟨hr, hi⟩ := eq_of_sum_range_add_eq (c := fun j => size / 2 ^ (j + 1)) hp hq (by omega)
  cases p
  cases q
  simp_all

/-- A winners round `j` of a draw of `k` rounds and `size` places, its ids tagged by `pfx`. -/
def winnersGame (pfx : String) (k size byes j i : Nat) : Match :=
  { id := .str s!"{pfx}_{firstNumber size j + i}", round := .int ↑(j + 1), number := .int (i + 1),
    team2 := if j = 0 ∧ i < byes then .str byeTeam else .null,
    autoAdvance := if j = 0 ∧ i < byes then .bool true else .bool false,
    next := if j + 1 < k then .str s!"{pfx}_{firstNumber size (j + 1) + i / 2}" else .null }

/-- The winners rounds that both knockout generators build, linked round to round. -/
def winnersRounds (pfx : String) (build : Nat → List Match → Round) (k size : Nat) :
    List Round :=
  linkWinners (numbered pfx (fun r => size / 2 ^ r) id build ((List.range k).map (· + 1)) 1)

@[simp] theorem length_winnersRounds (build : Nat → List Match → Round) (k size : Nat) :
    (winnersRounds pfx build k size).length = k := by
  simp [winnersRounds]

theorem getElem?_base_winnersRounds {build : Nat → List Match → Round} {k size j : Nat}
    (hj : j < k) :
    (numbered pfx (fun r => size / 2 ^ r) id build ((List.range k).map (· + 1)) 1)[j]? =
      some (build (j + 1) (numberedGames pfx (fun r => size / 2 ^ r) id (j + 1)
        (firstNumber size j))) := by
  rw [getElem?_numbered, List.getElem?_map, List.getElem?_range hj, Option.map_some,
    Option.map_some, ← List.map_take, List.take_range, Nat.min_eq_left hj.le, List.map_map]
  rfl

theorem lane_winnersRounds {k size j : Nat} {build : Nat → List Match → Round}
    (hlane : ∀ r gs, (build r gs).lane = some .winners) (hj : j < k) :
    ((winnersRounds pfx build k size)[j]?).map Round.lane = some (some .winners) := by
  rw [winnersRounds, getElem?_linkWinners, getElem?_base_winnersRounds hj, Option.map_some,
    Option.map_some]
  cases (numbered pfx (fun r => size / 2 ^ r) id build ((List.range k).map (· + 1)) 1)[j + 1]? <;>
    exact congrArg some (hlane _ _)

/-- Each round of a draw of `2 ^ k` places holds twice the matches of the round after it. -/
theorem count_eq_two_mul {k size j : Nat} (hsize : size = 2 ^ k) (h : j + 2 ≤ k) :
    size / 2 ^ (j + 1) = 2 * (size / 2 ^ (j + 2)) := by
  subst hsize
  rw [Nat.pow_div (by omega) Nat.zero_lt_two, Nat.pow_div (by omega) Nat.zero_lt_two,
    show k - (j + 1) = (k - (j + 2)) + 1 by omega, Nat.pow_succ, Nat.mul_comm]

/-- The games of winners round `j` before they are linked: numbered, and marked as byes in
the first round. -/
theorem getElem?_builtGames {k size byes : Nat} {build : Nat → List Match → Round}
    (hbuild : ∀ r gs, (build r gs).games = if r = 1 then markByes byes gs else gs) (j i : Nat) :
    (build (j + 1) (numberedGames pfx (fun r => size / 2 ^ r) id (j + 1)
      (firstNumber size j))).games[i]? =
        if i < size / 2 ^ (j + 1) then some { winnersGame pfx k size byes j i with next := .null }
        else none := by
  rw [hbuild]
  by_cases hj0 : j = 0
  · subst hj0
    rw [if_pos rfl, getElem?_markByes]
    simp only [Nat.zero_add, Nat.pow_one]
    by_cases hi : i < size / 2
    · by_cases hb : i < byes <;> simp [numberedGames, hi, hb, winnersGame]
    · simp [numberedGames, hi]
  · by_cases hi : i < size / 2 ^ (j + 1) <;> simp [numberedGames, hi, hj0, winnersGame]

theorem getElem?_winnersGames {k size byes j : Nat} (hsize : size = 2 ^ k) (hj : j < k)
    {build : Nat → List Match → Round}
    (hbuild : ∀ r gs, (build r gs).games = if r = 1 then markByes byes gs else gs) (i : Nat) :
    ((winnersRounds pfx build k size)[j]?).bind (·.games[i]?) =
      if i < size / 2 ^ (j + 1) then some (winnersGame pfx k size byes j i) else none := by
  rw [winnersRounds, getElem?_linkWinners, getElem?_base_winnersRounds hj, Option.map_some,
    Option.bind_some]
  by_cases hnext : j + 1 < k
  · rw [getElem?_base_winnersRounds hnext, Option.elim_some, getElem?_games_linkPair,
      getElem?_builtGames (k := k) hbuild, getElem?_builtGames (k := k) hbuild]
    have hc := count_eq_two_mul hsize (show j + 2 ≤ k by omega)
    by_cases hi : i < size / 2 ^ (j + 1)
    · have hi2 : i / 2 < size / 2 ^ (j + 2) := by omega
      simp [hi, hi2, winnersGame, hnext]
    · simp [hi]
  · have : (numbered pfx (fun r => size / 2 ^ r) id build ((List.range k).map (· + 1)) 1)[j + 1]? =
        none := List.getElem?_eq_none (by simp; omega)
    rw [this, Option.elim_none, getElem?_builtGames (k := k) hbuild]
    by_cases hi : i < size / 2 ^ (j + 1)
    · simp [hi, winnersGame, hnext]
    · simp [hi]

end Generate


theorem Value.relate_int (r : Relation) (a b : Int) :
    Value.relate r (.int a) (.int b) = .ok (r.holds (compare a b)) := by
  simp [Value.relate, Value.isNumber, Value.numberCmp?, Value.asExtended?, Extended.cmp]

namespace Shape

theorem knockout_int {n : Int} (h : 2 ≤ n) :
    knockout (.int n) = .ok (ceilLog2 n.toNat, 2 ^ ceilLog2 n.toNat) := by
  have hlt : Relation.holds .lt (compare n 2) = false := by
    simp [Relation.holds, compare_lt_iff_lt, not_lt.2 h]
  simp only [knockout, Value.relate_int, hlt]
  rfl

theorem roundHalfEven_ge (num den : Nat) : num / den ≤ Binary64.roundHalfEven num den := by
  unfold Binary64.roundHalfEven
  dsimp only
  split <;> omega

theorem floorLog2_one {n : Nat} (hn : n ≠ 0) : Binary64.floorLog2 n 1 = Nat.log2 n := by
  have hle := Nat.log2_self_le hn
  have h1 : Nat.log2 1 = 0 := by decide
  simp [Binary64.floorLog2, Binary64.powTwo, h1]
  omega

/-- A count of two or more in binary64: the exponent puts its leading bit at bit 52 of the
significand, which is the count scaled by a power of two to 53 bits and rounded half to even. -/
theorem ofInt_exp_mant_eq {n : Nat} (h : 2 ≤ n) :
    (Binary64.ofInt n).exp = (Nat.log2 n : Int) - 52 ∧
      (Binary64.ofInt n).mant.toNat = if 52 ≤ Nat.log2 n then
        Binary64.roundHalfEven n (2 ^ (Nat.log2 n - 52))
      else Binary64.roundHalfEven (n * 2 ^ (52 - Nat.log2 n)) 1 := by
  have hn : n ≠ 0 := by omega
  have he : max ((Nat.log2 n : Int) - ↑(Binary64.precision - 1)) Binary64.minExp =
      (Nat.log2 n : Int) - 52 := by
    simp [Binary64.precision, Binary64.minExp]
    omega
  simp only [Binary64.ofInt, Binary64.ofFraction, Binary64.ofNatFraction, Int.natAbs_natCast,
    Int.natAbs_one, floorLog2_one hn, he]
  have hsign : ((n : Int) < 0) = ((1 : Int) < 0) := by simp
  rw [if_pos hsign, if_neg (by omega)]
  refine ⟨rfl, ?_⟩
  simp only [Int.toNat_natCast]
  by_cases hbig : 52 ≤ Nat.log2 n
  · have hp : Binary64.powTwo ((Nat.log2 n : Int) - 52) = (2 ^ (Nat.log2 n - 52), 1) := by
      simp only [Binary64.powTwo, if_pos (show (0 : Int) ≤ (Nat.log2 n : Int) - 52 by omega)]
      congr
      omega
    rw [hp, if_pos hbig]
    dsimp only
    rw [Nat.mul_one, Nat.one_mul]
  · have hp : Binary64.powTwo ((Nat.log2 n : Int) - 52) = (1, 2 ^ (52 - Nat.log2 n)) := by
      simp only [Binary64.powTwo, if_neg (show ¬(0 : Int) ≤ (Nat.log2 n : Int) - 52 by omega)]
      congr
      omega
    rw [hp, if_neg hbig]
    dsimp only

/-- A count of two or more is held in binary64 with a 53-bit significand and the exponent
that leaves it between `2 ^ 52` and `2 ^ 53`. -/
theorem ofInt_exp_mant {n : Nat} (h : 2 ≤ n) :
    (Binary64.ofInt n).exp = (Nat.log2 n : Int) - 52 ∧
      2 ^ 52 ≤ (Binary64.ofInt n).mant.toNat := by
  obtain ⟨he, hm⟩ := ofInt_exp_mant_eq h
  have hle := Nat.log2_self_le (show n ≠ 0 by omega)
  refine ⟨he, ?_⟩
  rw [hm]
  -- rounding never goes below the truncated quotient, which is already `2 ^ 52` or more
  split <;> refine le_trans ?_ (roundHalfEven_ge _ _)
  · rw [Nat.le_div_iff_mul_le (Nat.two_pow_pos _), ← Nat.pow_add,
      show 52 + (Nat.log2 n - 52) = Nat.log2 n by omega]
    exact hle
  · rw [Nat.div_one]
    calc 2 ^ 52 = 2 ^ Nat.log2 n * 2 ^ (52 - Nat.log2 n) := by
          rw [← Nat.pow_add, show Nat.log2 n + (52 - Nat.log2 n) = 52 by omega]
      _ ≤ n * 2 ^ (52 - Nat.log2 n) := Nat.mul_le_mul_right _ hle

/-- A count of two or more takes at least one round. -/
theorem one_le_ceilLog2 {n : Nat} (h : 2 ≤ n) : 1 ≤ ceilLog2 n := by
  have hL : 1 ≤ Nat.log2 n := (Nat.le_log2 (by omega)).2 (by simpa using h)
  unfold ceilLog2
  split
  · unfold ceilLog2Split
    dsimp only
    split <;> split <;> omega
  · unfold ceilLog2Finite
    obtain ⟨he, hm⟩ := ofInt_exp_mant h
    have hm' : 52 ≤ Nat.log2 (Binary64.ofInt n).mant.toNat :=
      (Nat.le_log2 (by omega)).2 hm
    dsimp only
    rw [he]
    split <;> [skip; split] <;> omega

end Shape

end TournamentDraw
