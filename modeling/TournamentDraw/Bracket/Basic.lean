import TournamentDraw.Value.Arith
import TournamentDraw.DateTime

/-!
# Competitions, rounds and matches

A competition (`Bracket`) has a format, knockout rounds, a flat list of fixtures (round robin
and league) and the fixtures of every group, kept in the order the groups were given. A match
holds two team sides, which may still be empty, their scores, the result, and the ids of the
matches that its winner and its loser move on to.

Every match of a competition is visited in one order: knockout rounds first, then the flat
fixtures, then the groups. Looking a match up by id finds the first one in that order, while
moving a team along a link finds the last knockout match with the target id.
-/

namespace TournamentDraw

-- Powers and sums of numbers are the core ones, with no other instance in scope taking over.
attribute [local instance (2000)] instPowNat Zero.ofOfNat0

/-- The formats a competition can be generated in. -/
inductive Format where
  | groupsOnly
  | singleElimination
  | doubleElimination
  | roundRobin
  | groupsPlusKnockout
  | league
  deriving Repr, DecidableEq, Inhabited

namespace Format

/-- The name of a format, as stored and requested. -/
def name : Format → String
  | .groupsOnly => "GROUPS_ONLY"
  | .singleElimination => "SINGLE_ELIMINATION"
  | .doubleElimination => "DOUBLE_ELIMINATION"
  | .roundRobin => "ROUND_ROBIN"
  | .groupsPlusKnockout => "GROUPS_PLUS_KNOCKOUT"
  | .league => "LEAGUE"

/-- Every format, in the order they are listed to a user. -/
def all : List Format :=
  [.groupsOnly, .singleElimination, .doubleElimination, .roundRobin, .groupsPlusKnockout, .league]

/-- The format with the given name. -/
def ofName? (s : String) : Option Format :=
  all.find? (·.name == s)

/-- Whether a format plays groups first. -/
def hasGroups : Format → Bool
  | .groupsOnly | .groupsPlusKnockout => true
  | _ => false

end Format

/-- The state of a match. -/
inductive Status where
  | pending
  | inProgress
  | completed
  deriving Repr, DecidableEq, Inhabited

namespace Status

/-- The name of a state. -/
def name : Status → String
  | .pending => "PENDING"
  | .inProgress => "IN_PROGRESS"
  | .completed => "COMPLETED"

/-- The state with the given name. -/
def ofName? (s : String) : Option Status :=
  [Status.pending, .inProgress, .completed].find? (·.name == s)

end Status

/-- The column of a knockout round in a double elimination draw. -/
inductive Lane where
  | winners
  | losers
  | grandFinal
  deriving Repr, DecidableEq, Inhabited

namespace Lane

/-- The name of a lane. -/
def name : Lane → String
  | .winners => "winners"
  | .losers => "losers"
  | .grandFinal => "grand_final"

/-- The lane with the given name. -/
def ofName? (s : String) : Option Lane :=
  [Lane.winners, .losers, .grandFinal].find? (·.name == s)

end Lane

/-- The team id that stands for a missing opponent. -/
def byeTeam : String := "BYE"

/-- Whether an optional id names something: it is present and not empty. -/
def named : Option String → Bool
  | some s => !s.isEmpty
  | none => false

/-- A fixture between two team sides. Every field but the state holds the value it was given,
of whatever kind: generated matches hold texts and integers, and a match read from a record
keeps the record's values. -/
structure Match where
  id : Value
  round : Value
  number : Value
  team1 : Value := .null
  team2 : Value := .null
  slot1 : Value := .null
  slot2 : Value := .null
  score1 : Value := .null
  score2 : Value := .null
  winner : Value := .null
  loser : Value := .null
  manualWinner : Value := .null
  manualOverride : Value := .bool false
  status : Status := .pending
  next : Value := .null
  loserNext : Value := .null
  autoAdvance : Value := .bool false
  groupLetter : Value := .null
  deriving Repr, Inhabited

namespace Match

/-- Whether the match is over. -/
def isCompleted (m : Match) : Bool :=
  m.status == .completed

/-- Whether the match is a bye, as a value: the mark to advance without play when it is set,
else whether the second side is the bye team. -/
def byeValue (m : Match) : Value :=
  m.autoAdvance.orElse (m.team2.eqv (.str byeTeam))

/-- Whether the match is a bye. -/
def isBye (m : Match) : Bool :=
  m.byeValue.truthy

/-- Whether a team plays in the match. -/
def plays (m : Match) (team : Value) : Bool :=
  m.team1.eqv team || m.team2.eqv team

/-- A side's team as shown in a summary: `TBD` while it is not named. -/
def sideText (t : Value) : String :=
  if t.truthy then t.describe else "TBD"

/-- The one-line summary of a match: its score once completed, else the pairing. -/
def summary (m : Match) : String :=
  if m.isCompleted ∧ !m.score1.isNull then
    s!"{m.id.describe}: {sideText m.team1} {m.score1.describe}-{m.score2.describe} {sideText m.team2}"
  else s!"{m.id.describe}: {sideText m.team1} vs {sideText m.team2}"

end Match

/-- A knockout round: its number, display name, matches and lane. The number and name keep
the values they were given. -/
structure Round where
  number : Value
  name : Value
  games : List Match := []
  lane : Option Lane := none
  deriving Repr, Inhabited

/-- A competition. The counts, the third-place switch and the seed keep the values they
were given; the competition also keeps when it was generated. -/
structure Bracket where
  format : Format
  groupCount : Value := .null
  teamsPerGroup : Value := .null
  advancing : Value := .null
  rounds : List Round := []
  fixtures : List Match := []
  groups : List (String × List Match) := []
  thirdPlace : Value := .bool false
  seed : Value := .null
  generatedAt : DateTime := .clockStart
  deriving Repr, Inhabited

/-- The place of a knockout match: its round and its index in that round. -/
structure Pos where
  round : Nat
  index : Nat
  deriving Repr, DecidableEq, Inhabited

/-- Where a match of a competition stands. -/
inductive MatchRef where
  | knockout (p : Pos)
  | fixture (i : Nat)
  | group (g i : Nat)
  deriving Repr, DecidableEq, Inhabited

namespace Bracket

/-- The knockout matches with their places, round by round. -/
def knockoutPlaces (b : Bracket) : List (Pos × Match) :=
  b.rounds.zipIdx.flatMap fun (r, ri) => r.games.zipIdx.map fun (m, i) => (⟨ri, i⟩, m)

/-- Every match with its reference, in visiting order: knockout rounds, fixtures, groups. -/
def places (b : Bracket) : List (MatchRef × Match) :=
  (b.knockoutPlaces.map fun (p, m) => (MatchRef.knockout p, m)) ++
  (b.fixtures.zipIdx.map fun (m, i) => (MatchRef.fixture i, m)) ++
  (b.groups.zipIdx.flatMap fun ((_, ms), g) => ms.zipIdx.map fun (m, i) => (MatchRef.group g i, m))

/-- Every match in visiting order. -/
def allMatches (b : Bracket) : List Match :=
  b.places.map Prod.snd

/-- The reference of the first match with the id, in visiting order. -/
def findRef? (b : Bracket) (id : Value) : Option MatchRef :=
  (b.places.find? (·.2.id.eqv id)).map Prod.fst

/-- The first match with the id, in visiting order. -/
def find? (b : Bracket) (id : Value) : Option Match :=
  (b.places.find? (·.2.id.eqv id)).map Prod.snd

/-- The place of the last knockout match with the id. -/
def locate? (b : Bracket) (id : Value) : Option Pos :=
  (b.knockoutPlaces.reverse.find? (·.2.id.eqv id)).map Prod.fst

/-- The knockout match at a place. -/
def matchAt? (b : Bracket) (p : Pos) : Option Match :=
  (b.rounds[p.round]?).bind fun r => r.games[p.index]?

/-- The match at a reference. -/
def get? (b : Bracket) : MatchRef → Option Match
  | .knockout p => b.matchAt? p
  | .fixture i => b.fixtures[i]?
  | .group g i => (b.groups[g]?).bind fun (_, ms) => ms[i]?

/-- The competition with the knockout match at a place changed by `f`. -/
def modifyAt (b : Bracket) (p : Pos) (f : Match → Match) : Bracket :=
  { b with rounds := b.rounds.modify p.round fun r => { r with games := r.games.modify p.index f } }

/-- The competition with the match at a reference changed by `f`. -/
def modify (b : Bracket) (f : Match → Match) : MatchRef → Bracket
  | .knockout p => b.modifyAt p f
  | .fixture i => { b with fixtures := b.fixtures.modify i f }
  | .group g i => { b with groups := b.groups.modify g fun (l, ms) => (l, ms.modify i f) }

/-- The number of knockout matches. -/
def knockoutCount (b : Bracket) : Nat :=
  (b.rounds.map (·.games.length)).sum

/-- The one-line summary of a competition: format, knockout and flat matches, seed. -/
def summary (b : Bracket) : String :=
  s!"{b.format.name} bracket ({b.knockoutCount + b.fixtures.length} matches, seed={b.seed.describe})"

end Bracket

end TournamentDraw
