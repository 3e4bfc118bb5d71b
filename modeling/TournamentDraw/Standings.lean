import TournamentDraw.Bracket.Basic
import TournamentDraw.Value.Sort

/-!
# Group tables

A group table counts the completed matches between two teams of the group that have both
scores: a win is worth three points, a draw one. Rows are ordered by points, then goal
difference, then goals scored, all descending; teams still level keep their order in the
group. A team listed twice keeps its first place in the list. Keys that hold not-a-number are
below nothing, so the order of rows is the one the sort produces from its comparisons.

Scores are values. Goals are summed from the integer 0 as values are added, so binary64
scores give binary64 sums, and a score that is not a number is refused when it is added; a
team id that is a list or an object cannot be looked up among the teams and is refused.
-/

namespace TournamentDraw

/-- A row of a group table. Every field is a value: a counted table holds integers (and goal
sums that may be binary64 numbers), while a row read from a record keeps the values it was
given. -/
structure Standing where
  team : Value
  played : Value := .int 0
  won : Value := .int 0
  drawn : Value := .int 0
  lost : Value := .int 0
  goalsFor : Value := .int 0
  goalsAgainst : Value := .int 0
  goalDifference : Value := .int 0
  points : Value := .int 0
  position : Value := .int 0
  deriving Repr, Inhabited

/-- The one-line summary of a row, the goal difference always signed; a goal difference that
is not an integer or a truth value is refused. -/
def Standing.summary (s : Standing) : Except OperandError String := do
  let gd ← s.goalDifference.signedText
  return s!"#{s.position.describe} {s.team.describe}: {s.points.describe}pts " ++
    s!"{s.won.describe}W-{s.drawn.describe}D-{s.lost.describe}L ({gd})"

/-- The record of one team while a table is counted: whole counts, and goal sums as values. -/
structure Tally where
  team : Value
  played : Int := 0
  won : Int := 0
  drawn : Int := 0
  lost : Int := 0
  points : Int := 0
  goalsFor : Value := .int 0
  goalsAgainst : Value := .int 0
  deriving Repr, Inhabited

namespace Tally

/-- The tally after one more match, before its goals are added. -/
def play (t : Tally) : Tally :=
  { t with played := t.played + 1 }

/-- The tally with goals scored and conceded added, in that order. -/
def addGoals (t : Tally) (gf ga : Value) : Except OperandError Tally := do
  let f ← t.goalsFor.plus "+=" gf
  let a ← t.goalsAgainst.plus "+=" ga
  return { t with goalsFor := f, goalsAgainst := a }

/-- The tally after a win, a draw or a loss. -/
def addOutcome (t : Tally) (o : Ordering) : Tally :=
  match o with
  | .gt => { t with won := t.won + 1, points := t.points + 3 }
  | .eq => { t with drawn := t.drawn + 1, points := t.points + 1 }
  | .lt => { t with lost := t.lost + 1 }

/-- The row of a finished tally at a position. -/
def toStanding (t : Tally) (gd : Value) (position : Nat) : Standing :=
  { team := t.team, played := .int t.played, won := .int t.won, drawn := .int t.drawn,
    lost := .int t.lost, goalsFor := t.goalsFor, goalsAgainst := t.goalsAgainst,
    goalDifference := gd, points := .int t.points, position := .int position }

end Tally

/-- Whether a value can be looked up among team ids: lists and objects cannot. -/
def lookupKey (v : Value) : Except OperandError Value :=
  match v with
  | .list _ | .obj _ => .error (.unsupported s!"unhashable type: '{v.kindName}'")
  | _ => .ok v

/-- The tallies of a group's teams, one per team at its first place; a later equal id gives
the row its own value. -/
def startTallies (teams : List Value) : Except OperandError (List Tally) :=
  teams.foldlM (fun rows t => do
    let t ← lookupKey t
    if rows.any (·.team.eqv t) then
      return rows.map fun r => if r.team.eqv t then { team := t } else r
    else return rows ++ [{ team := t }]) []

/-- The index of a team's tally, if the team is in the group. -/
def tallyIndex? (rows : List Tally) (team : Value) : Except OperandError (Option Nat) := do
  let team ← lookupKey team
  return rows.findIdx? (·.team.eqv team)

/-- The tallies after one match, if it counts: completed, both teams in the group, both
scores given. The home side's goals are added first, then the away side's. -/
def countMatch (rows : List Tally) (m : Match) : Except OperandError (List Tally) := do
  if !m.isCompleted then return rows
  let some h ← tallyIndex? rows m.team1 | return rows
  let some a ← tallyIndex? rows m.team2 | return rows
  if m.score1.isNull ∨ m.score2.isNull then return rows
  let rows := (rows.modify h Tally.play).modify a Tally.play
  let home ← ((rows[h]?).getD default).addGoals m.score1 m.score2
  let rows := rows.set h home
  let away ← ((rows[a]?).getD default).addGoals m.score2 m.score1
  let rows := rows.set a away
  let outcome : Ordering ←
    if ← m.score1.relate .gt m.score2 then pure .gt
    else if ← m.score1.relate .lt m.score2 then pure .lt
    else pure .eq
  return (rows.modify h (·.addOutcome outcome)).modify a (·.addOutcome outcome.swap)

/-- Whether a number is below another; never when either is not a number. -/
def numberBelow (a b : Value) : Bool :=
  (Value.relate .lt a b).toOption.getD false

/-- Whether the key `(points, goal difference, goals)` of a row is below another's, decided at
the first place where the two are not equal. Not-a-number equals nothing and is below nothing,
so a key holding it is never below another there. -/
def keyBelow (a b : Int × Value × Value) : Bool :=
  if a.1 != b.1 then a.1 < b.1
  else if !a.2.1.eqv b.2.1 then numberBelow a.2.1 b.2.1
  else if !a.2.2.eqv b.2.2 then numberBelow a.2.2 b.2.2
  else false

/-- The table of a group from its teams, in group order, and the matches to consider. The rows
are sorted by their keys from the highest: the list is reversed, sorted upward, and reversed
again, so rows whose keys are not below one another keep their order. -/
def groupTable (teams : List Value) (games : List Match) : Except OperandError (List Standing) := do
  let rows ← games.foldlM countMatch (← startTallies teams)
  let keyed ← rows.mapM fun t => do
    let gd ← t.goalsFor.minus t.goalsAgainst
    return (t, gd)
  let key (r : Tally × Value) : Int × Value × Value := (r.1.points, r.2, r.1.goalsFor)
  let sorted ← sortWith (fun x y => pure (keyBelow (key x) (key y))) keyed.reverse
  return sorted.reverse.zipIdx.map fun ((t, gd), i) => t.toStanding gd (i + 1)

/-- A list without repeats, each element at its first place. -/
def firstOccurrences : List String → List String
  | [] => []
  | x :: xs => x :: (firstOccurrences xs).filter (· != x)

/-- The first `k` entries of a list; a negative `k` drops `-k` entries from the end. -/
def takeSigned {α : Type} (xs : List α) (k : Int) : List α :=
  if k ≥ 0 then xs.take k.toNat else xs.take (xs.length - (-k).toNat)

/-- The rows of a sorted table that go through: as many as `advancing` says, counted from the
end when it is negative, all when it is null; any other kind of count is refused. -/
def qualifiers (rows : List Standing) (advancing : Value) : Except OperandError (List Standing) := do
  match ← advancing.sliceEnd? with
  | some k => return takeSigned rows k
  | none => return rows

end TournamentDraw
