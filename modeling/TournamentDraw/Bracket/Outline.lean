import TournamentDraw.Bracket.Basic

/-!
# The outline of a competition

The outline shows a competition's structure before any team is placed: its summary line, the
group layout if it has groups, every knockout round with its matches (a bye marked, and where
the winner and the loser go), and the flat fixtures round by round with the slots they pair.
Slots are counted from one.
-/

namespace TournamentDraw

/-- A round's heading: its name and number of matches. -/
def Round.heading (r : Round) : String :=
  s!"{r.name.describe} ({r.games.length} matches)"

/-- Where a knockout match sends its winner and its loser, as far as it does. -/
def Match.links (m : Match) : String :=
  let winner := if m.next.truthy then ["winner -> " ++ m.next.describe] else []
  let loser := if m.loserNext.truthy then ["loser -> " ++ m.loserNext.describe] else []
  ", ".intercalate (winner ++ loser)

/-- A knockout match's line: its id, a bye mark, and its links. -/
def Match.outlineLine (m : Match) : String :=
  let mark := if m.isBye then " [BYE]" else ""
  s!"     {m.id.describe}{mark}  {m.links}"

/-- A slot as counted from one. -/
def slotText (slot : Value) : String :=
  match slot.plus "+" (.int 1) with
  | .ok v => v.describe
  | .error _ => slot.describe

/-- The lines of the flat fixtures: a heading whenever the round changes, then each fixture
with the slots it pairs. -/
def fixtureLines : Value → List Match → List String
  | _, [] => []
  | current, m :: ms =>
    let heading := if m.round.eqv current then [] else ["", s!"  Round {m.round.describe}"]
    heading ++ [s!"     {m.id.describe}: slot {slotText m.slot1} vs slot {slotText m.slot2}"] ++
      fixtureLines m.round ms

/-- The outline of a competition, one line per entry. -/
def Bracket.outline (b : Bracket) : List String :=
  let layout := if b.groupCount.truthy then
      [s!"  Groups: {b.groupCount.describe} x up to {b.teamsPerGroup.describe} teams"]
    else []
  let rounds := b.rounds.flatMap fun r =>
    ["", s!"  {r.number.describe}. {r.heading}"] ++ r.games.map Match.outlineLine
  [s!"[INFO] {b.summary}"] ++ layout ++ rounds ++ fixtureLines .null b.fixtures

end TournamentDraw
