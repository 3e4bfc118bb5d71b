import TournamentDraw.Service.Access
import TournamentDraw.Service.Settings
import TournamentDraw.Bracket.Generate
import TournamentDraw.Bracket.Placement
import TournamentDraw.Draw.Shuffle

/-!
# Competitions of a tournament

A tournament's competition is generated from its drawn groups (group formats, with a round
robin inside every group) or from its approved teams placed in seeded-shuffle order (other
formats), and stored, replacing an earlier one. Results are recorded on a copy of the stored
competition, read afresh from its text, and saved only when the step succeeds. Once every group fixture is played, the
group qualifiers are seeded into a freshly built knockout stage.
-/

namespace TournamentDraw

-- Powers and sums of numbers are the core ones, with no other instance in scope taking over.
attribute [local instance (2000)] instPowNat Zero.ofOfNat0

/-- What a competition request asks for; every field may be left to the settings. -/
structure CompetitionRequest where
  format : Option String := none
  ageGroup : Option String := none
  groupCount : Option Int := none
  advancing : Option Int := none
  thirdPlace : Option Value := none
  seed : Option String := none
  legs : Option Int := none
  deriving Repr, Inhabited

namespace Txn

/-- A competition step's answer, a refused step reported as the services report it. -/
def ofStep {α : Type} (r : Except BracketError α) : Txn α :=
  match r with
  | .ok a => pure a
  | .error e => refuse (.ofStep e)

/-- Run a competition step on a competition: the answer and the competition after it. -/
def runStep {α : Type} (st : Step α) (b : Bracket) : Txn (α × Bracket) :=
  let (r, b') := (st.run).run b
  match r with
  | .ok a => pure (a, b')
  | .error e => refuse (.ofStep e)

/-- A setting, refused when the settings cannot be asked for it. -/
def settingOr (cfg : Value) (key : String) (d : Value) : Txn Value :=
  match setting cfg key d with
  | .ok v => pure v
  | .error e => refuse e

/-- A nonzero integer, or none. -/
def given (n : Option Int) : Option Int :=
  match n with
  | some k => if k = 0 then none else some k
  | none => none

/-- A value the request gives, else a setting. -/
def givenOr (cfg : Value) (v : Option Value) (key : String) (d : Value) : Txn Value :=
  match v with
  | some v => pure v
  | none => settingOr cfg key d

/-- The format of a competition by its name, refused when there is no such format. -/
def formatOf (name : String) : Txn Format :=
  match Format.parse name with
  | .ok f => pure f
  | .error e => refuse (.step e)

/-- The seed of a competition: the one asked for, else the tournament's draw seed, else a
fresh one. -/
def competitionSeed (req : CompetitionRequest) (t : Tournament) : Txn String :=
  if named req.seed then pure (req.seed.getD "")
  else if named t.drawSeed then pure (t.drawSeed.getD "") else freshCompetitionSeed

/-- Refuse a group count that differs from the number of drawn groups. -/
def checkGroupCount (asked : Option Int) (drawn : Nat) : Txn Unit :=
  match asked with
  | some g => refuseIf (g ≠ drawn) (.drawnGroupCount drawn g)
  | none => pure ()

/-- A competition over the drawn groups: their fixtures, and a knockout stage for their
qualifiers. -/
def groupStage (drawn : List Group) (fmt : Format) (req : CompetitionRequest)
    (advancing third : Value) (seed : String) : Txn Bracket := do
  refuseIf drawn.isEmpty .groupsNotDrawn
  checkGroupCount (given req.groupCount) drawn.length
  let teams := (drawn.map (·.teams.length)).sum
  let data ← ofStep (Generate.build fmt
    { teams := teams, groupCount := some drawn.length, advancing := advancing,
      thirdPlace := third, seed := some seed })
  let groups := drawn.foldl (fun acc g =>
    assocSet acc g.letter (Generate.groupFixtures g.letter g.teams)) []
  return { data with groups := groups }

/-- A competition of the approved teams, placed in the order the seed shuffles them. -/
def knockoutStage (tid : String) (fmt : Format) (req : CompetitionRequest) (third legs : Value)
    (seed : String) : Txn Bracket := do
  let ids := ((← get).approvedOf tid).map (·.id)
  refuseIf (ids.length < 2) .tooFewForBracket
  let data ← ofStep (Generate.build fmt
    { teams := ids.length, groupCount := req.groupCount, thirdPlace := third,
      seed := some seed, legs := legs })
  let placed ← runStep (Step.placeTeams ((Draw.seededShuffle ids seed).map .str)) data
  return placed.2

/-- Generate and store the competition of a tournament. -/
def generate (cfg : Value) (tid : String) (actor : Actor) (req : CompetitionRequest) :
    Txn Bracket := do
  let t ← authorize tid actor .manageBrackets
  let drawn := (← get).groupsOf tid
  let fmt ← formatOf (req.format.getD
    (if t.drawCompleted ∧ !drawn.isEmpty then "GROUPS_PLUS_KNOCKOUT" else "SINGLE_ELIMINATION"))
  let advancing ← givenOr cfg ((given req.advancing).map .int) "advancing_per_group" (.int 2)
  let third ← givenOr cfg req.thirdPlace "third_place_match" (.bool false)
  let legs ← givenOr cfg ((given req.legs).map .int) "league_legs" (.int 2)
  let seed ← competitionSeed req t
  let data ← (if fmt.hasGroups then groupStage drawn fmt req advancing third seed
    else knockoutStage tid fmt req third legs seed)
  bound req.ageGroup.toList
  modify fun s => s.saveBracket tid req.ageGroup data
  return data

/-- The competition a stored row holds, read afresh from its text. -/
def readStored (b : StoredBracket) : Txn Bracket :=
  ofExcept (b.data.mapError .unreadable)

/-- The stored competition of a tournament or age group, refused if there is none. -/
def stored (tid : String) (age : Option String) : Txn Bracket := do
  bound age.toList
  match (← get).bracket? tid age with
  | some b => readStored b
  | none => refuse .bracketNotFound

/-- Every match of the stored competition, in visiting order. -/
def allMatches (tid : String) (age : Option String) : Txn (List Match) := do
  let _ ← tournament tid
  return (← stored tid age).allMatches

/-- Apply a step to a match of the stored competition and save the competition. -/
def onMatch (tid : String) (age : Option String) (id : String) (st : Step Match) :
    Txn Match := do
  let data ← stored tid age
  refuseIf (data.find? (.str id)).isNone (.matchNotFound id)
  let played ← runStep st data
  modify fun s => s.saveBracket tid age played.2
  return played.1

/-- Record a match result on the stored competition. -/
def recordScore (tid id : String) (actor : Actor) (r : Result) (age : Option String) :
    Txn Match := do
  let _ ← authorize tid actor .manageMatches
  for score in [r.score1, r.score2] do
    if !score.isNull then
      if ← operand (Value.relate .lt score (.int 0)) then refuse .negativeScore
  onMatch tid age id (Step.record (.str id) r)

/-- Force the team that goes through a match of the stored competition. -/
def forceAdvance (tid id team : String) (actor : Actor) (age : Option String) : Txn Match := do
  let _ ← authorize tid actor .manageMatches
  onMatch tid age id (Step.forceWinner (.str id) (.str team))

/-- The group fixtures of the stored competition by letter, read afresh from its text; none
when no competition is stored. -/
def storedFixtures (tid : String) (age : Option String) : Txn (List (String × List Match)) := do
  match (← get).bracket? tid age with
  | some b => return (← readStored b).groups
  | none => return []

/-- The tables of every group by letter, in group order; each counts the group's fixtures of
the stored competition. A letter used twice keeps its first place and its last table. -/
def tables (tid : String) (age : Option String) : Txn (List (String × List Standing)) := do
  let _ ← tournament tid
  bound age.toList
  let fixtures ← storedFixtures tid age
  let s ← get
  (s.groupsOf tid).foldlM (fun acc g => do
    let rows ← operand (groupTable (g.teams.map .str) ((fixtures.lookup g.letter).getD []))
    return assocSet acc g.letter rows) []

/-- Seed the group qualifiers into a freshly built knockout stage. -/
def seedKnockout (tid : String) (actor : Actor) (age : Option String) : Txn Bracket := do
  let _ ← authorize tid actor .manageBrackets
  let data ← stored tid age
  if data.format ≠ .groupsPlusKnockout then refuse .noKnockoutStage
  let pending := (data.groups.flatMap (·.2)).countP (!·.isCompleted)
  if pending ≠ 0 then refuse (.groupStageOpen pending)
  if data.rounds.any (·.games.any fun m => m.isCompleted ∧ !m.autoAdvance.truthy) then
    refuse .knockoutStarted
  let advancing := if data.advancing.truthy then data.advancing else .int 2
  let standings ← tables tid age
  let shares ← standings.mapM fun (_, rows) => operand (advancing.least (.int rows.length))
  let count ← operand (Value.total shares)
  let knockout ← ofStep (Generate.singleElimination count data.thirdPlace data.seed)
  let data := { data with rounds := knockout.rounds }
  let ((), data) ← runStep (do
      Step.seedGroups (standings.map (·.2)) advancing
      Step.resolveByes) data
  modify fun s => s.saveBracket tid age data
  return data

end Txn

end TournamentDraw
