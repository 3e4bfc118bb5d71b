import TournamentDraw.Proofs.GroupTable
import TournamentDraw.Proofs.GroupKeys

/-!
# The group table as a count

A group table has a reference reading that does not follow the way it is computed. Each team
of the group, at its first place in the list, has a line: the sum over the counted matches (the
completed ones between two teams of the group with both scores given) of what each side it
plays adds, one game and its goals and a win, a draw or a loss. The rows are these lines
ranked by points, goal difference and goals scored, from the highest, teams level on all three
in group order, and numbered from one.

Main statement: `groupTable_eq_reference`, that the table is this reading for every list of
teams and every list of matches whose fields hold the kinds the match record declares, with
the sums it implies: goal differences cancel, wins and losses balance, and the games played
are twice the counted matches.

The proof follows the table's three stages. Counting a match adds its two sides to the lines
of its teams (`countMatch_rowsOf`), so the counted tallies are the reference lines
(`foldlM_countMatch_rowsOf`). The sort is stable on the keys (`sortWith_sortsStably`), and a
stably sorted list is determined by what it sorts (`SortsStably.unique`), so the sorted rows
are the reference lines stably sorted.
-/

namespace TournamentDraw

/-- A whole number read off a value: an integer, or a truth value as 0 or 1. -/
def Value.whole? : Value → Option Int
  | .int n => some n
  | .bool b => some (if b then 1 else 0)
  | _ => none

/-- The fields of a match hold the kinds its record declares: each side a team id or nothing,
each score a whole number or nothing. A truth value is a whole number, 0 or 1. -/
structure Match.Typed (m : Match) : Prop where
  team1 : m.team1 = .null ∨ ∃ s, m.team1 = .str s
  team2 : m.team2 = .null ∨ ∃ s, m.team2 = .str s
  score1 : m.score1 = .null ∨ ∃ n, m.score1.whole? = some n
  score2 : m.score2 = .null ∨ ∃ n, m.score2.whole? = some n

namespace Table

/-- A team's line in a group table: games played, won, drawn and lost, goals for and
against. -/
@[ext] structure Line where
  played : Int
  won : Int
  drawn : Int
  lost : Int
  goalsFor : Int
  goalsAgainst : Int
  deriving DecidableEq, Repr

namespace Line

instance : Zero Line := ⟨⟨0, 0, 0, 0, 0, 0⟩⟩

instance : Add Line :=
  ⟨fun a b => ⟨a.played + b.played, a.won + b.won, a.drawn + b.drawn, a.lost + b.lost,
    a.goalsFor + b.goalsFor, a.goalsAgainst + b.goalsAgainst⟩⟩

@[simp] theorem played_add (a b : Line) : (a + b).played = a.played + b.played := rfl
@[simp] theorem won_add (a b : Line) : (a + b).won = a.won + b.won := rfl
@[simp] theorem drawn_add (a b : Line) : (a + b).drawn = a.drawn + b.drawn := rfl
@[simp] theorem lost_add (a b : Line) : (a + b).lost = a.lost + b.lost := rfl
@[simp] theorem goalsFor_add (a b : Line) : (a + b).goalsFor = a.goalsFor + b.goalsFor := rfl
@[simp] theorem goalsAgainst_add (a b : Line) :
    (a + b).goalsAgainst = a.goalsAgainst + b.goalsAgainst := rfl
@[simp] theorem played_zero : (0 : Line).played = 0 := rfl
@[simp] theorem won_zero : (0 : Line).won = 0 := rfl
@[simp] theorem drawn_zero : (0 : Line).drawn = 0 := rfl
@[simp] theorem lost_zero : (0 : Line).lost = 0 := rfl
@[simp] theorem goalsFor_zero : (0 : Line).goalsFor = 0 := rfl
@[simp] theorem goalsAgainst_zero : (0 : Line).goalsAgainst = 0 := rfl

instance : AddCommMonoid Line where
  add_assoc a b c := by ext <;> simp [Int.add_assoc]
  zero_add a := by ext <;> simp
  add_zero a := by ext <;> simp
  add_comm a b := by ext <;> simp [Int.add_comm]
  nsmul := nsmulRec

/-- What one side of a match adds to its team's line: one game, the goals it scored and
conceded, and a win, a draw or a loss. -/
def side (gf ga : Int) : Line :=
  ⟨1, if ga < gf then 1 else 0, if gf = ga then 1 else 0, if gf < ga then 1 else 0, gf, ga⟩

/-- Three points for a win and one for a draw. -/
def points (l : Line) : Int := 3 * l.won + l.drawn

def goalDifference (l : Line) : Int := l.goalsFor - l.goalsAgainst

/-- The rank of a line, higher first: points, then goal difference, then goals scored. -/
def rank (l : Line) : (Lex (Int × Lex (Int × Int)))ᵒᵈ :=
  OrderDual.toDual (toLex (l.points, toLex (l.goalDifference, l.goalsFor)))

/-- The row of team `t` with line `l` at position `pos`. -/
def toStanding (t : String) (l : Line) (pos : Nat) : Standing :=
  { team := .str t, played := .int l.played, won := .int l.won, drawn := .int l.drawn,
    lost := .int l.lost, goalsFor := .int l.goalsFor, goalsAgainst := .int l.goalsAgainst,
    goalDifference := .int l.goalDifference, points := .int l.points, position := .int pos }

end Line

/-- A counted match: the teams of its two sides and their goals. -/
structure Reading where
  home : String
  away : String
  homeGoals : Int
  awayGoals : Int

/-- A match as the group of teams `D` counts it: when it is completed, both its sides name
teams of the group and both its scores are given. -/
def reading? (D : List String) (m : Match) : Option Reading :=
  match m.team1, m.team2, m.score1.whole?, m.score2.whole? with
  | .str a, .str b, some x, some y =>
    if m.isCompleted = true ∧ a ∈ D ∧ b ∈ D then some ⟨a, b, x, y⟩ else none
  | _, _, _, _ => none

/-- What a counted match adds to the line of team `t`: its home side if `t` plays there, and
its away side if `t` plays there, both for a team that meets itself. -/
def Reading.lineOf (r : Reading) (t : String) : Line :=
  (if r.home = t then Line.side r.homeGoals r.awayGoals else 0) +
    (if r.away = t then Line.side r.awayGoals r.homeGoals else 0)

/-- The counted matches among `games`, in their order. -/
def readings (D : List String) (games : List Match) : List Reading :=
  games.filterMap (reading? D)

/-- The reference line of team `t`: what the counted matches add to it, summed. -/
def lineOf (D : List String) (games : List Match) (t : String) : Line :=
  ((readings D games).map (·.lineOf t)).sum

/-- The reference lines of a group: one for each team, at its first place in the list. -/
def referenceLines (teams : List String) (games : List Match) : List (String × Line) :=
  (firstOccurrences teams).map fun t => (t, lineOf (firstOccurrences teams) games t)

/-! ### Counting a match -/

/-- A game played, with nothing else. -/
def Line.game : Line := ⟨1, 0, 0, 0, 0, 0⟩

/-- Goals scored and conceded, with nothing else. -/
def Line.goals (gf ga : Int) : Line := ⟨0, 0, 0, 0, gf, ga⟩

/-- A win, a draw or a loss, with nothing else. -/
def Line.outcome : Ordering → Line
  | .gt => ⟨0, 1, 0, 0, 0, 0⟩
  | .eq => ⟨0, 0, 1, 0, 0, 0⟩
  | .lt => ⟨0, 0, 0, 1, 0, 0⟩

/-- The tally the table keeps for team `t` while its line is `l`. -/
def Line.toTally (t : String) (l : Line) : Tally :=
  { team := .str t, played := l.played, won := l.won, drawn := l.drawn, lost := l.lost,
    points := l.points, goalsFor := .int l.goalsFor, goalsAgainst := .int l.goalsAgainst }

/-- The tallies of the teams `D`, team `t` with line `ℓ t`. -/
def rowsOf (D : List String) (ℓ : String → Line) : List Tally :=
  D.map fun t => (ℓ t).toTally t

theorem play_toTally (t : String) (l : Line) :
    (l.toTally t).play = (l + Line.game).toTally t := by
  simp [Line.toTally, Tally.play, Line.game, Line.points]

theorem Value.plus_whole (op : String) (a : Int) {x : Value} {n : Int} (h : x.whole? = some n) :
    Value.plus op (.int a) x = .ok (.int (a + n)) := by
  cases x <;> simp_all [Value.whole?, Value.plus, Value.number?, Number.add, Number.toValue,
    Except.map]

theorem addGoals_toTally (t : String) (l : Line) {x y : Value} {gx gy : Int}
    (hx : x.whole? = some gx) (hy : y.whole? = some gy) :
    (l.toTally t).addGoals x y = .ok ((l + Line.goals gx gy).toTally t) := by
  simp [Tally.addGoals, Line.toTally, Value.plus_whole _ _ hx, Value.plus_whole _ _ hy,
    Line.goals, Line.points, bind, Except.bind, pure, Except.pure]

theorem addOutcome_toTally (t : String) (l : Line) (o : Ordering) :
    (l.toTally t).addOutcome o = (l + Line.outcome o).toTally t := by
  cases o <;> simp [Tally.addOutcome, Line.toTally, Line.outcome, Line.points] <;> omega

theorem Value.relate_whole (r : Relation) {x y : Value} {a b : Int} (hx : x.whole? = some a)
    (hy : y.whole? = some b) : Value.relate r x y = .ok (r.holds (compare a b)) := by
  cases x <;> cases y <;> simp_all [Value.whole?, Value.relate, Value.isNumber, Value.numberCmp?,
    Value.asExtended?, Extended.cmp]

/-- The place of `s` among distinct teams is the one place where `s` stands. -/
theorem idxOf_eq_iff {D : List String} (hD : D.Nodup) {s : String} {i : Nat} (hi : i < D.length) :
    D.idxOf s = i ↔ D[i] = s := by
  constructor
  · rintro rfl
    exact List.getElem_idxOf hi
  · rintro rfl
    exact hD.idxOf_getElem i hi

theorem modify_map_idxOf {β : Type} {D : List String} (hD : D.Nodup) (F : String → β)
    (s : String) (f : β → β) :
    (D.map F).modify (D.idxOf s) f = D.map fun t => if t = s then f (F t) else F t := by
  refine List.ext_getElem (by simp) fun i h₁ _ => ?_
  have hi : i < D.length := by simpa using h₁
  simp only [List.getElem_modify, List.getElem_map, idxOf_eq_iff hD hi]

theorem set_map_idxOf {β : Type} {D : List String} (hD : D.Nodup) (F : String → β)
    (s : String) (x : β) :
    (D.map F).set (D.idxOf s) x = D.map fun t => if t = s then x else F t := by
  refine List.ext_getElem (by simp) fun i h₁ _ => ?_
  have hi : i < D.length := by simpa using h₁
  simp only [List.getElem_set, List.getElem_map, idxOf_eq_iff hD hi]

/-- The lines `ℓ` with `δ` credited to team `s`. -/
def credit (ℓ : String → Line) (s : String) (δ : Line) (t : String) : Line :=
  ℓ t + if t = s then δ else 0

section Rows

variable {D : List String} (hD : D.Nodup) (ℓ : String → Line)
include hD

/-- Changing the tally of one team credits its line alone. -/
theorem modify_rowsOf (s : String) {f : Tally → Tally} {δ : Line}
    (hf : ∀ l, f (l.toTally s) = (l + δ).toTally s) :
    (rowsOf D ℓ).modify (D.idxOf s) f = rowsOf D (credit ℓ s δ) := by
  rw [rowsOf, modify_map_idxOf hD]
  refine List.map_congr_left fun t _ => ?_
  by_cases h : t = s
  · subst h
    simp [credit, hf]
  · simp [credit, h]

theorem set_rowsOf (s : String) (δ : Line) :
    (rowsOf D ℓ).set (D.idxOf s) ((ℓ s + δ).toTally s) = rowsOf D (credit ℓ s δ) := by
  rw [rowsOf, set_map_idxOf hD]
  refine List.map_congr_left fun t _ => ?_
  by_cases h : t = s
  · subst h
    simp [credit]
  · simp [credit, h]

omit hD in
theorem getD_rowsOf {s : String} (hs : s ∈ D) :
    ((rowsOf D ℓ)[D.idxOf s]?).getD default = (ℓ s).toTally s := by
  rw [rowsOf, List.getElem?_map, List.getElem?_eq_getElem (List.idxOf_lt_length_of_mem hs),
    List.getElem_idxOf]
  rfl

end Rows

theorem findIdx?_beq (D : List String) (s : String) :
    D.findIdx? (· == s) = if s ∈ D then some (D.idxOf s) else none := by
  induction D with
  | nil => rfl
  | cons x D ih =>
    rw [List.findIdx?_cons, List.idxOf_cons, ih]
    by_cases hx : x = s
    · simp [hx]
    · have hxs : (x == s) = false := beq_false_of_ne hx
      by_cases hs : s ∈ D <;> simp [hxs, hs, Ne.symm hx]

/-- A team id is found among the tallies exactly when it names a team of the group. -/
theorem tallyIndex?_rowsOf (D : List String) (ℓ : String → Line) (s : String) :
    tallyIndex? (rowsOf D ℓ) (.str s) = .ok (if s ∈ D then some (D.idxOf s) else none) := by
  have hfind : (rowsOf D ℓ).findIdx? (fun r => r.team.eqv (.str s)) = D.findIdx? (· == s) := by
    rw [rowsOf, List.findIdx?_map]
    rfl
  simp only [tallyIndex?, lookupKey, bind, Except.bind, pure, Except.pure]
  rw [hfind, findIdx?_beq]

theorem tallyIndex?_rowsOf_null (D : List String) (ℓ : String → Line) :
    tallyIndex? (rowsOf D ℓ) .null = .ok none := by
  have hnone : (rowsOf D ℓ).findIdx? (fun r => r.team.eqv .null) = none := by
    rw [rowsOf, List.findIdx?_map, List.findIdx?_eq_none_iff]
    intro t _
    rfl
  simp only [tallyIndex?, lookupKey, bind, Except.bind, pure, Except.pure, hnone]

theorem Value.isNull_of_whole {v : Value} {n : Int} (h : v.whole? = some n) : v.isNull = false := by
  cases v <;> simp_all [Value.whole?, Value.isNull]

/-- A match counts only when it is completed, both its sides name teams of the group and both
its scores are whole numbers. -/
theorem reading?_eq_some {D : List String} {m : Match} {r : Reading} (h : reading? D m = some r) :
    m.isCompleted = true ∧ m.team1 = .str r.home ∧ m.team2 = .str r.away ∧ r.home ∈ D ∧
      r.away ∈ D ∧ m.score1.whole? = some r.homeGoals ∧ m.score2.whole? = some r.awayGoals := by
  unfold reading? at h
  split at h
  · next a b x y h1 h2 hx hy =>
    split_ifs at h with hc
    cases h
    exact ⟨hc.1, h1, h2, hc.2.1, hc.2.2, hx, hy⟩
  · cases h

/-- A match that does not count leaves the tallies as they are. -/
theorem countMatch_of_reading?_eq_none {D : List String} (ℓ : String → Line) {m : Match}
    (hm : m.Typed) (hr : reading? D m = none) : countMatch (rowsOf D ℓ) m = .ok (rowsOf D ℓ) := by
  unfold countMatch
  simp only [bind, Except.bind, pure, Except.pure]
  by_cases hc : m.isCompleted = true
  swap
  · simp [hc]
  rcases hm.team1 with h1 | ⟨a, h1⟩
  · simp [hc, h1, tallyIndex?_rowsOf_null]
  by_cases ha : a ∈ D
  swap
  · simp [hc, h1, ha, tallyIndex?_rowsOf]
  rcases hm.team2 with h2 | ⟨b, h2⟩
  · simp [hc, h1, h2, ha, tallyIndex?_rowsOf, tallyIndex?_rowsOf_null]
  by_cases hb : b ∈ D
  swap
  · simp [hc, h1, h2, ha, hb, tallyIndex?_rowsOf]
  -- both sides are teams of the group, so a score must be missing
  rcases hm.score1 with hs1 | ⟨x, hx⟩
  · simp [hc, h1, h2, ha, hb, hs1, tallyIndex?_rowsOf, Value.isNull]
  rcases hm.score2 with hs2 | ⟨y, hy⟩
  · simp [hc, h1, h2, ha, hb, hs2, tallyIndex?_rowsOf, Value.isNull]
  simp [reading?, h1, h2, hx, hy, hc, ha, hb] at hr

/-- One side of a match: a game, its goals, and its outcome. -/
theorem side_eq (x y : Int) :
    Line.side x y = Line.game + Line.goals x y + Line.outcome (compare x y) := by
  rcases lt_trichotomy x y with h | rfl | h
  · ext <;> simp [Line.side, Line.game, Line.goals, Line.outcome, compare_lt_iff_lt.2 h, h,
      h.ne, not_lt.2 h.le]
  · ext <;> simp [Line.side, Line.game, Line.goals, Line.outcome]
  · ext <;> simp [Line.side, Line.game, Line.goals, Line.outcome, compare_gt_iff_gt.2 h, h,
      h.ne', not_lt.2 h.le]

/-- The lines after a counted match: each side credited with its game, its goals and its
outcome, the home side first, are the lines with the match's reading added. -/
theorem credits_eq (ℓ : String → Line) (r : Reading) {o : Ordering}
    (ho : compare r.homeGoals r.awayGoals = o) :
    credit (credit (credit (credit (credit (credit ℓ r.home Line.game) r.away Line.game) r.home
        (Line.goals r.homeGoals r.awayGoals)) r.away (Line.goals r.awayGoals r.homeGoals)) r.home
        (Line.outcome o)) r.away (Line.outcome o.swap) =
      fun t => ℓ t + r.lineOf t := by
  have hs := side_eq r.homeGoals r.awayGoals
  have hs' := side_eq r.awayGoals r.homeGoals
  rw [← Int.compare_swap, ho] at hs'
  rw [ho] at hs
  funext t
  simp only [credit, Reading.lineOf, hs, hs']
  by_cases hh : t = r.home <;> by_cases ha : t = r.away
  · -- a team that meets itself takes both sides
    subst hh
    simp only [if_true, ← ha]
    abel
  · subst hh
    simp only [ha, Ne.symm ha, if_true, if_false, add_zero]
    abel
  · subst ha
    simp only [hh, Ne.symm hh, if_true, if_false, add_zero, zero_add]
    abel
  · simp only [hh, ha, Ne.symm hh, Ne.symm ha, if_false, add_zero]

/-- **Counting a match** adds what it reads to the lines of its teams, and nothing when it
does not count. -/
theorem countMatch_rowsOf {D : List String} (hD : D.Nodup) (ℓ : String → Line) {m : Match}
    (hm : m.Typed) :
    countMatch (rowsOf D ℓ) m =
      .ok (rowsOf D fun t => ℓ t + ((reading? D m).map (·.lineOf t)).getD 0) := by
  cases hr : reading? D m with
  | none =>
    simp only [Option.map_none, Option.getD_none, add_zero]
    exact countMatch_of_reading?_eq_none ℓ hm hr
  | some r =>
    obtain ⟨hc, h1, h2, hh, ha, hx, hy⟩ := reading?_eq_some hr
    unfold countMatch
    simp only [bind, Except.bind, pure, Except.pure, hc, h1, h2, tallyIndex?_rowsOf, hh, ha,
      if_true, Value.isNull_of_whole hx, Value.isNull_of_whole hy, Bool.not_true,
      Bool.false_eq_true, if_false, or_self]
    -- the two sides play, then take their goals, home side first
    rw [modify_rowsOf hD ℓ r.home (play_toTally r.home),
      modify_rowsOf hD _ r.away (play_toTally r.away), getD_rowsOf _ hh,
      addGoals_toTally _ _ hx hy]
    dsimp only
    rw [set_rowsOf hD, getD_rowsOf _ ha, addGoals_toTally _ _ hy hx]
    dsimp only
    rw [set_rowsOf hD, Value.relate_whole _ hx hy, Value.relate_whole _ hx hy]
    dsimp only
    -- then the outcome the scores give, which is their comparison
    cases ho : compare r.homeGoals r.awayGoals <;>
      simp +decide only [Option.map_some, Option.getD_some, if_true, if_false] <;>
      rw [modify_rowsOf hD _ r.home (addOutcome_toTally r.home · _),
        modify_rowsOf hD _ r.away (addOutcome_toTally r.away · _), credits_eq ℓ r ho]

/-- Counting the matches one after another adds up what the counted ones read. -/
theorem foldlM_countMatch_rowsOf {D : List String} (hD : D.Nodup) :
    ∀ (games : List Match) (ℓ : String → Line), (∀ m ∈ games, m.Typed) →
      games.foldlM countMatch (rowsOf D ℓ) =
        .ok (rowsOf D fun t => ℓ t + ((readings D games).map (·.lineOf t)).sum)
  | [], ℓ, _ => by
    simp only [readings, List.filterMap_nil, List.map_nil, List.sum_nil, add_zero,
      List.foldlM_nil]
    rfl
  | m :: games, ℓ, hg => by
    rw [List.foldlM_cons, countMatch_rowsOf hD ℓ (hg m List.mem_cons_self)]
    simp only [bind, Except.bind]
    rw [foldlM_countMatch_rowsOf hD games _ fun m' h => hg m' (List.mem_cons_of_mem _ h)]
    congr 2
    funext t
    cases hr : reading? D m <;> simp [readings, hr, add_assoc]

/-- A team listed again adds nothing to the teams listed so far. -/
theorem firstOccurrences_append_singleton (t : String) : ∀ l : List String,
    firstOccurrences (l ++ [t]) =
      if t ∈ l then firstOccurrences l else firstOccurrences l ++ [t]
  | [] => rfl
  | x :: l => by
    rw [List.cons_append, firstOccurrences, firstOccurrences, firstOccurrences_append_singleton t l]
    by_cases hx : t = x
    · subst hx
      by_cases hl : t ∈ l <;> simp [hl, List.filter_append]
    · by_cases hl : t ∈ l <;> simp [hx, hl, List.filter_append]

/-- The table starts with a tally for each team at its first place, nothing counted. -/
theorem startTallies_eq (teams : List String) :
    startTallies (teams.map .str) = .ok (rowsOf (firstOccurrences teams) fun _ => 0) := by
  induction teams using List.reverseRecOn with
  | nil => rfl
  | append_singleton pre t ih =>
    unfold startTallies at ih ⊢
    rw [List.map_append, List.foldlM_append, ih]
    have hany : ((rowsOf (firstOccurrences pre) fun _ => 0).any fun r => r.team.eqv (.str t)) =
        decide (t ∈ pre) := by
      simp [rowsOf, List.any_map, Function.comp_def, Line.toTally, Value.eqv, List.any_beq',
        mem_firstOccurrences]
    simp only [List.map_cons, List.map_nil, List.foldlM_cons, List.foldlM_nil, lookupKey, bind,
      Except.bind, pure, Except.pure, hany, firstOccurrences_append_singleton]
    by_cases ht : t ∈ pre
    · -- a team listed again starts afresh, as it already stands
      simp only [ht, decide_true, if_true]
      congr 1
      refine (List.map_congr_left (g := id) fun r hr => ?_).trans (List.map_id _)
      obtain ⟨s, -, rfl⟩ := List.mem_map.1 hr
      by_cases hs : s = t
      · subst hs
        simp [Line.toTally, Value.eqv]
        rfl
      · simp [Line.toTally, Value.eqv, hs]
    · simp [ht, rowsOf]
      rfl

theorem Value.minus_int (a b : Int) : Value.minus (.int a) (.int b) = .ok (.int (a - b)) := by
  simp [Value.minus, Value.number?, Number.sub, Number.toValue, Except.map]

/-- A line as the table sorts it: its tally and its goal difference. -/
def keyedRow (x : String × Line) : Tally × Value :=
  (x.2.toTally x.1, .int x.2.goalDifference)

/-- Each counted tally is paired with its goal difference. -/
theorem mapM_goalDifference (D : List String) (ℓ : String → Line) :
    (rowsOf D ℓ).mapM (fun t => do
        let gd ← t.goalsFor.minus t.goalsAgainst
        return (t, gd)) = .ok ((D.map fun t => (t, ℓ t)).map keyedRow) := by
  induction D with
  | nil => rfl
  | cons t D ih =>
    rw [rowsOf, List.map_cons, List.mapM_cons, ← rowsOf, ih]
    simp [Line.toTally, Value.minus_int, keyedRow, Line.goalDifference, bind, Except.bind, pure,
      Except.pure]

end Table

/-! ### Stable sorts and the sort key -/

section Stable

variable {α β γ : Type} [LinearOrder β] {f : α → β}

/-- Sorting mapped elements by a key read through the map is sorting the elements. -/
theorem SortsStably.map {g : γ → α} {xs ys : List γ} (h : SortsStably (f ∘ g) xs ys) :
    SortsStably f (xs.map g) (ys.map g) := by
  refine ⟨List.pairwise_map.2 h.1, fun k => ?_⟩
  rw [List.filter_map, List.filter_map]
  exact congrArg (List.map g) (h.2 k)

/-- Read backwards, a list sorted upward is sorted downward, ties reversed with the rest. -/
theorem SortsStably.reverse {xs ys : List α} (h : SortsStably f xs.reverse ys) :
    SortsStably (fun a => OrderDual.toDual (f a)) xs ys.reverse := by
  refine ⟨List.pairwise_reverse.2 h.1, fun k => ?_⟩
  have hk := congrArg List.reverse (h.2 (OrderDual.ofDual k))
  rw [← List.filter_reverse, ← List.filter_reverse, List.reverse_reverse] at hk
  exact hk

/-- A stable sort has one outcome: the elements of each key, in their order, key by key. -/
theorem SortsStably.unique {xs ys zs : List α} (hy : SortsStably f xs ys)
    (hz : SortsStably f xs zs) : ys = zs := by
  classical
  have hL : (((xs.map f).toFinset).sort (· ≤ ·)).Pairwise (· < ·) :=
    List.sortedLT_iff_pairwise.1 (Finset.sortedLT_sort _)
  have hkeys : ∀ x ∈ xs, f x ∈ ((xs.map f).toFinset).sort (· ≤ ·) := fun x hx =>
    (Finset.mem_sort _).2 (List.mem_toFinset.2 (List.mem_map_of_mem hx))
  rw [hy.eq_flatMap hL hkeys, hz.eq_flatMap hL hkeys]

end Stable

/-- On whole numbers the key comparison of a table is the lexicographic order. -/
theorem keyBelow_int (p p' g g' f f' : Int) :
    keyBelow (p, .int g, .int f) (p', .int g', .int f') =
      decide (toLex (p, toLex (g, f)) < toLex (p', toLex (g', f'))) := by
  have hbelow : ∀ a b : Int, numberBelow (.int a) (.int b) = decide (a < b) := fun a b => by
    rw [Bool.eq_iff_iff]
    simp [numberBelow, Value.relate_int, Relation.holds, Except.toOption, compare_lt_iff_lt]
  simp only [keyBelow, hbelow, Value.eqv_int, Prod.Lex.toLex_lt_toLex]
  by_cases hp : p = p' <;> by_cases hg : g = g' <;> by_cases hf : f = f' <;> simp [hp, hg, hf]

namespace Table

/-! ### Sums over the table -/

/-- A field of a line that adds up, summed over lines, is the field of their sum. -/
theorem sum_map_additive (φ : Line → Int) (hφ : ∀ a b, φ (a + b) = φ a + φ b) (L : List Line) :
    (L.map φ).sum = φ L.sum :=
  (map_list_sum (AddMonoidHom.mk' φ hφ) L).symm

/-- Both sides of a counted match. -/
def Reading.sides (r : Reading) : Line :=
  Line.side r.homeGoals r.awayGoals + Line.side r.awayGoals r.homeGoals

/-- The two sides of a match: goal differences cancel, a win is a loss, two games played. -/
theorem sides_balance (r : Reading) :
    r.sides.goalDifference = 0 ∧ r.sides.won = r.sides.lost ∧ r.sides.played = 2 := by
  refine ⟨?_, ?_, rfl⟩
  · simp [Reading.sides, Line.goalDifference, Line.side]
    omega
  · rcases lt_trichotomy r.homeGoals r.awayGoals with h | h | h
    · simp [Reading.sides, Line.side, h, not_lt.2 h.le]
    · simp [Reading.sides, Line.side, h]
    · simp [Reading.sides, Line.side, h, not_lt.2 h.le]

theorem mem_readings {D : List String} {games : List Match} {r : Reading}
    (hr : r ∈ readings D games) : r.home ∈ D ∧ r.away ∈ D := by
  obtain ⟨m, -, hm⟩ := List.mem_filterMap.1 hr
  obtain ⟨-, -, -, hh, ha, -⟩ := reading?_eq_some hm
  exact ⟨hh, ha⟩

/-- Over the teams of the group, a counted match adds its two sides, once each. -/
theorem sum_lineOf {D : List String} (hD : D.Nodup) {r : Reading} (hh : r.home ∈ D)
    (ha : r.away ∈ D) : (D.map r.lineOf).sum = r.sides := by
  classical
  rw [← List.sum_toFinset _ hD]
  change ∑ t ∈ D.toFinset, ((if r.home = t then Line.side r.homeGoals r.awayGoals else 0) +
    (if r.away = t then Line.side r.awayGoals r.homeGoals else 0)) = _
  rw [Finset.sum_add_distrib, Finset.sum_ite_eq, Finset.sum_ite_eq,
    if_pos (List.mem_toFinset.2 hh), if_pos (List.mem_toFinset.2 ha), Reading.sides]

/-- The lines of a group add up to the two sides of every counted match. -/
theorem sum_lines {D : List String} (hD : D.Nodup) :
    ∀ R : List Reading, (∀ r ∈ R, r.home ∈ D ∧ r.away ∈ D) →
      (D.map fun t => (R.map (·.lineOf t)).sum).sum = (R.map Reading.sides).sum
  | [], _ => by simp
  | r :: R, hR => by
    have hr := hR r List.mem_cons_self
    simp only [List.map_cons, List.sum_cons]
    rw [List.sum_map_add (l := D), sum_lineOf hD hr.1 hr.2,
      sum_lines hD R fun r' h => hR r' (List.mem_cons_of_mem _ h)]

/-- Summed over the reference lines of a group, in any order, goal differences cancel, wins
and losses balance, and twice as many games are played as matches are counted. -/
theorem balance_of_perm {teams : List String} {games : List Match} {lines : List (String × Line)}
    (h : lines.Perm (referenceLines teams games)) :
    (lines.map (·.2.goalDifference)).sum = 0 ∧
      (lines.map (·.2.won)).sum = (lines.map (·.2.lost)).sum ∧
      (lines.map (·.2.played)).sum = 2 * (readings (firstOccurrences teams) games).length := by
  set R := readings (firstOccurrences teams) games
  have htotal : ((referenceLines teams games).map (·.2)).sum = (R.map Reading.sides).sum := by
    rw [← sum_lines (nodup_firstOccurrences teams) R fun r hr => mem_readings hr]
    simp [referenceLines, lineOf, R, Function.comp_def]
  -- each field that adds up sums, over the lines, to its sum over the counted matches
  have hfield : ∀ φ : Line → Int, (∀ a b, φ (a + b) = φ a + φ b) →
      (lines.map (φ ·.2)).sum = (R.map fun r => φ r.sides).sum := fun φ hφ =>
    calc (lines.map (φ ·.2)).sum = ((referenceLines teams games).map (φ ·.2)).sum :=
          (h.map _).sum_eq
      _ = φ ((referenceLines teams games).map (·.2)).sum := by
          rw [← sum_map_additive φ hφ, List.map_map]; rfl
      _ = (R.map fun r => φ r.sides).sum := by
          rw [htotal, ← sum_map_additive φ hφ, List.map_map]; rfl
  refine ⟨?_, ?_, ?_⟩
  · rw [hfield _ fun a b => by simp [Line.goalDifference]; abel]
    simp [(sides_balance _).1]
  · rw [hfield _ fun a b => rfl, hfield _ fun a b => rfl]
    simp [(sides_balance _).2.1]
  · rw [hfield _ fun a b => rfl]
    simp [(sides_balance _).2.2, mul_comm]

/-! ### The sort -/

theorem ok_bind {ε α β : Type} (a : α) (f : α → Except ε β) : (Except.ok a >>= f) = f a := rfl

/-- The key a counted row is sorted on: points, goal difference and goals scored. -/
def rowKey (x : Tally × Value) : Lex (Int × Lex (Int × Int)) :=
  toLex (x.1.points, toLex (x.2.whole?.getD 0, x.1.goalsFor.whole?.getD 0))

/-- Sorting the keyed reference lines upward on their keys, reversed, and read back, is
sorting the lines down by rank with ties in their order. -/
theorem sortWith_keyedRows {ε : Type} {lt : Tally × Value → Tally × Value → Except ε Bool}
    (hlt : ∀ x y : String × Line,
      lt (keyedRow x) (keyedRow y) = .ok (decide (rowKey (keyedRow x) < rowKey (keyedRow y))))
    (lines : List (String × Line)) :
    ∃ order, SortsStably (fun x : String × Line => x.2.rank) lines order ∧ order.Perm lines ∧
      ∃ ys, sortWith lt (lines.map keyedRow).reverse = .ok ys ∧ ys.reverse = order.map keyedRow := by
  obtain ⟨ys, hys, hup⟩ := sortWith_sortsStably (f := rowKey) (lines.map keyedRow).reverse
    fun a ha b hb => by
      obtain ⟨x, -, rfl⟩ := List.mem_map.1 (List.mem_reverse.1 ha)
      obtain ⟨y, -, rfl⟩ := List.mem_map.1 (List.mem_reverse.1 hb)
      exact hlt x y
  -- a second stable sort, of the lines themselves by rank, names the order
  obtain ⟨order, hord, hdown⟩ := @sortWith_sortsStably _ _
    (fun a b : String × Line => (.ok (decide (a.2.rank < b.2.rank)) : Except Unit Bool)) _ _
    (fun x : String × Line => x.2.rank) lines fun _ _ _ _ => rfl
  have hsame : SortsStably (fun a => OrderDual.toDual (rowKey a)) (lines.map keyedRow)
      (order.map keyedRow) := SortsStably.map hdown
  exact ⟨order, hdown, sortWith_perm hord, ys, hys, hup.reverse.unique hsame⟩

/-- The table of a group is its reference reading: the reference lines ranked by points,
goal difference and goals scored from the highest, teams level on all three in group order,
numbered from one. Over the table, goal differences cancel, wins and losses balance, and twice
as many games are played as matches are counted. -/
theorem groupTable_eq_reference (teams : List String) (games : List Match)
    (htyped : ∀ m ∈ games, m.Typed) :
    ∃ order, SortsStably (fun x : String × Line => x.2.rank) (referenceLines teams games) order ∧
      groupTable (teams.map .str) games =
        .ok (order.zipIdx.map fun x => x.1.2.toStanding x.1.1 (x.2 + 1)) ∧
      (order.map (·.2.goalDifference)).sum = 0 ∧
      (order.map (·.2.won)).sum = (order.map (·.2.lost)).sum ∧
      (order.map (·.2.played)).sum = 2 * (readings (firstOccurrences teams) games).length := by
  obtain ⟨order, hsorted, hperm, ys, hys, hrev⟩ :=
    @sortWith_keyedRows _ (fun x y => (pure (keyBelow (x.1.points, x.2, x.1.goalsFor)
      (y.1.points, y.2, y.1.goalsFor)) : Except OperandError Bool))
      (fun x y => by simp only [keyedRow, Line.toTally, pure, Except.pure, keyBelow_int]; rfl)
      (referenceLines teams games)
  refine ⟨order, hsorted, ?_, balance_of_perm hperm⟩
  simp only [referenceLines, lineOf, List.map_map] at hys
  simp only [groupTable, startTallies_eq, ok_bind,
    foldlM_countMatch_rowsOf (nodup_firstOccurrences teams) games _ htyped, zero_add,
    mapM_goalDifference, List.map_map]
  rw [hys, ok_bind, hrev, List.zipIdx_map, List.map_map]
  rfl

/-- A group with a team listed twice and a match won by a truth value's goal. -/
theorem groupTable_reference_repeated_team :
    (∀ m ∈ [({ id := .int 1, round := .int 1, number := .int 1, team1 := .str "b",
               team2 := .str "a", score1 := .int 0, score2 := .bool true,
               status := .completed } : Match)], m.Typed) ∧
    ∃ order, SortsStably (fun x : String × Line => x.2.rank)
        (referenceLines ["a", "b", "a"]
          [{ id := .int 1, round := .int 1, number := .int 1, team1 := .str "b",
             team2 := .str "a", score1 := .int 0, score2 := .bool true,
             status := .completed }]) order ∧
      groupTable (["a", "b", "a"].map .str)
          [{ id := .int 1, round := .int 1, number := .int 1, team1 := .str "b",
             team2 := .str "a", score1 := .int 0, score2 := .bool true,
             status := .completed }] =
        .ok (order.zipIdx.map fun x => x.1.2.toStanding x.1.1 (x.2 + 1)) ∧
      (order.map (·.2.goalDifference)).sum = 0 ∧
      (order.map (·.2.won)).sum = (order.map (·.2.lost)).sum ∧
      (order.map (·.2.played)).sum = 2 * (readings (firstOccurrences ["a", "b", "a"])
          [{ id := .int 1, round := .int 1, number := .int 1, team1 := .str "b",
             team2 := .str "a", score1 := .int 0, score2 := .bool true,
             status := .completed }]).length := by
  have htyped : ∀ m ∈ [({ id := .int 1, round := .int 1, number := .int 1, team1 := .str "b",
                          team2 := .str "a", score1 := .int 0, score2 := .bool true,
                          status := .completed } : Match)], m.Typed := by
    intro m hm
    rw [List.mem_singleton.1 hm]
    exact ⟨.inr ⟨_, rfl⟩, .inr ⟨_, rfl⟩, .inr ⟨0, rfl⟩, .inr ⟨1, rfl⟩⟩
  exact ⟨htyped, groupTable_eq_reference _ _ htyped⟩

end Table

end TournamentDraw
