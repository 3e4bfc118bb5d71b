import TournamentDraw.Bracket.Basic
import TournamentDraw.Bracket.Shape
import TournamentDraw.Seed

/-!
# Generating a competition

One generator per format. Knockout draws fill the first round with byes for the top seeds
until the field is a power of two, and link every match to the match its winner plays next;
a third-place match takes both semi-final losers. A double elimination draw adds a losers
bracket whose rounds alternate between taking the losers of a winners round and halving, and a
grand final. Round robins pair slots by the circle method; a league adds a return leg with
home and away swapped. Team sides stay empty: teams are placed afterwards.
-/

namespace TournamentDraw

-- Powers and sums of numbers are the core ones, with no other instance in scope taking over.
attribute [local instance (2000)] instPowNat Zero.ofOfNat0

/-- What a competition is generated from. The qualifiers per group, the third-place switch and
the number of league legs are values, taken as given: the competition keeps them, and they
are compared and multiplied by their kinds. -/
structure Plan where
  teams : Int
  groupCount : Option Int := none
  advancing : Value := .int 2
  thirdPlace : Value := .bool false
  seed : Option String := none
  legs : Value := .int 2
  deriving Repr, Inhabited

namespace Generate

/-- Rounds of knockout matches built one after another with ids `prefix_k`, counted across
rounds from the given number. Round `r` of the list has `count r` matches, played in round
number `number r`, and is finished by `build`. -/
def numbered (pfx : String) (count number : Nat → Nat) (build : Nat → List Match → Round) :
    List Nat → Nat → List Round
  | [], _ => []
  | r :: rs, k =>
    let games := (List.range (count r)).map fun i =>
      ({ id := .str s!"{pfx}_{k + i}", round := .int (number r), number := .int (i + 1) } : Match)
    build r games :: numbered pfx count number build rs (k + count r)

/-- Mark the first `byes` matches of a round as byes for their first side. -/
def markByes (byes : Nat) (games : List Match) : List Match :=
  games.zipIdx.map fun (m, i) =>
    if i < byes then { m with team2 := .str byeTeam, autoAdvance := .bool true } else m

/-- Link every match of `cur` to match `i / 2` of `nxt`, where that exists. -/
def linkPair (cur nxt : Round) : Round :=
  { cur with games := cur.games.zipIdx.map fun (m, i) =>
      match nxt.games[i / 2]? with
      | some t => { m with next := t.id }
      | none => m }

/-- Link every round's winners into the following round. -/
def linkWinners : List Round → List Round
  | r1 :: r2 :: rest => linkPair r1 r2 :: linkWinners (r2 :: rest)
  | rs => rs

/-- Set a field of the first match of a round. -/
def modifyFirst (r : Round) (f : Match → Match) : Round :=
  { r with games := r.games.modify 0 f }

/-- The id of the first match of a round, null if there is none. -/
def firstId (r : Round) : Value :=
  (r.games.head?.map (·.id)).getD .null

/-- A single elimination draw of `rounds` rounds and `size` places with `byes` bye matches,
with ids `match_k`, and the next free id number. -/
def singleRounds (byes rounds size : Nat) : List Round × Nat :=
  let rs := numbered "match" (fun r => size / 2 ^ r) id
    (fun r games => { number := .int r, name := .str (Shape.roundName r rounds),
                      games := if r = 1 then markByes byes games else games,
                      lane := some .winners })
    ((List.range rounds).map (· + 1)) 1
  (linkWinners rs, 1 + ((List.range rounds).map fun r => size / 2 ^ (r + 1)).sum)

/-- Single elimination with byes for a count of teams, and a third-place match if asked for
(by a true value) and there are semi-finals. -/
def singleElimination (teams : Value) (thirdPlace : Value) (seed : Value) :
    Except BracketError Bracket := do
  let (rounds, size) ← Shape.knockout teams
  let (rs, k) := singleRounds (Shape.byeCount size teams) rounds size
  let rs := if thirdPlace.truthy ∧ 2 ≤ rounds then
      let third : Match := { id := .str s!"match_{k}", round := .int (rounds + 1), number := .int 1 }
      let rs := rs.modify (rounds - 2) fun r =>
        { r with games := r.games.map fun m => { m with loserNext := third.id } }
      rs ++ [{ number := .int (rounds + 1), name := .str "Third Place", games := [third] }]
    else rs
  return { format := .singleElimination, rounds := rs, thirdPlace := thirdPlace, seed := seed }

/-- The number of matches of losers round `r` (from 1) in a draw of `size` places. -/
def losersCount (size r : Nat) : Nat :=
  let d := 2 ^ ((r + 1) / 2 + 1)
  (size + d - 1) / d

/-- Link each losers round to the next: to match `i / 2` when the next round is smaller,
else to match `i`. -/
def linkLosersPair (cur nxt : Round) : Round :=
  let halves := nxt.games.length < cur.games.length
  { cur with games := cur.games.zipIdx.map fun (m, i) =>
      match nxt.games[if halves then i / 2 else i]? with
      | some t => { m with next := t.id }
      | none => m }

/-- Link every losers round into the following one. -/
def linkLosers : List Round → List Round
  | r1 :: r2 :: rest => linkLosersPair r1 r2 :: linkLosers (r2 :: rest)
  | rs => rs

/-- Send the losers of winners round `r` (from 0) to their losers round: round 1 takes two
losers per match, winners round `r` feeds losers round `2r`, the winners final the losers final
(or the grand final when there is no losers bracket). -/
def routeLosers (total : Nat) (losers : List Round) (final : Round) (r : Nat) (w : Round) :
    Round :=
  let target :=
    if r + 1 = total then losers.getLast?.getD final
    else if r = 0 then losers.headD final
    else losers.getD (2 * r - 1) final
  let factor := if r = 0 then 2 else 1
  { w with games := w.games.zipIdx.map fun (m, i) =>
      match target.games[min (i / factor) (target.games.length - 1)]? with
      | some t => { m with loserNext := t.id }
      | none => m }

/-- Double elimination: winners rounds, losers rounds, grand final. -/
def doubleElimination (teams : Value) (seed : Value) : Except BracketError Bracket := do
  let (rounds, size) ← Shape.knockout teams
  let byes := Shape.byeCount size teams
  let winners := numbered "winners" (fun r => size / 2 ^ r) id
    (fun r games => { number := .int r,
                      name := .str (if r = rounds then "Winners Final" else s!"Winners Round {r}"),
                      games := if r = 1 then markByes byes games else games,
                      lane := some .winners })
    ((List.range rounds).map (· + 1)) 1
  let k := 1 + ((List.range rounds).map fun r => size / 2 ^ (r + 1)).sum
  let loserRounds := 2 * rounds - 2
  let losers := numbered "losers" (losersCount size) (· + rounds)
    (fun r games => { number := .int (r + rounds),
                      name := .str (if r = loserRounds then "Losers Final" else s!"Losers Round {r}"),
                      games := games, lane := some .losers })
    ((List.range loserRounds).map (· + 1)) k
  let k := k + ((List.range loserRounds).map fun r => losersCount size (r + 1)).sum
  let finalNumber := rounds + loserRounds + 1
  let final : Round := { number := .int finalNumber, name := .str "Grand Finals",
                         games := [{ id := .str s!"grand_final_{k}", round := .int finalNumber,
                                     number := .int 1 }],
                         lane := some .grandFinal }
  let winners := linkWinners winners
  let winners := winners.modify (rounds - 1) fun r =>
    modifyFirst r fun m => { m with next := firstId final }
  let losers := linkLosers losers
  let losers := losers.modify (loserRounds - 1) fun r =>
    modifyFirst r fun m => { m with next := firstId final }
  let winners := winners.zipIdx.map fun (w, r) => routeLosers rounds losers final r w
  return { format := .doubleElimination, rounds := winners ++ losers ++ [final], seed := seed }

/-- Round robin fixtures among `teams` slots with ids `prefix_k`, numbered within each round. -/
def fixtures (teams : Int) (pfx : String) : Except BracketError (List Match) := do
  let schedule ← Shape.roundRobin teams
  let rows := schedule.zipIdx.flatMap fun (pairs, r) =>
    pairs.zipIdx.map fun ((a, b), i) => (r + 1, i + 1, a, b)
  return rows.zipIdx.map fun ((r, i, a, b), k) =>
    { id := .str s!"{pfx}_{k + 1}", round := .int r, number := .int i, slot1 := .int a,
      slot2 := .int b }

/-- A generated round number; zero for a value that is not an integer. -/
def roundOf (m : Match) : Int :=
  match m.round with
  | .int r => r
  | _ => 0

/-- The return leg of a league: rounds shifted past the first leg, sides swapped. -/
def returnLeg (first : List Match) : List Match :=
  let offset := (first.map roundOf).foldl max 0
  first.zipIdx.map fun (m, k) =>
    { id := .str s!"leg2_{k + 1}", round := .int (roundOf m + offset), number := m.number,
      team1 := m.team2, team2 := m.team1, slot1 := m.slot2, slot2 := m.slot1 }

/-- An operation on values inside a generator, its refusal passed on. -/
def operand {α : Type} (r : Except OperandError α) : Except BracketError α :=
  r.mapError .operand

/-- The competition of a format for a plan. A league has a return leg when its legs are more
than one; the knockout stage after groups has the groups times the qualifiers per group. -/
def build (fmt : Format) (p : Plan) : Except BracketError Bracket :=
  let seed := Value.ofOptStr p.seed
  match fmt with
  | .groupsOnly => do
    let (g, per) ← Shape.groupLayout p.teams p.groupCount
    return { format := .groupsOnly, groupCount := .int g, teamsPerGroup := .int per,
             seed := seed }
  | .singleElimination => singleElimination (.int p.teams) p.thirdPlace seed
  | .doubleElimination => doubleElimination (.int p.teams) seed
  | .roundRobin => do
    return { format := .roundRobin, fixtures := ← fixtures p.teams "rr", seed := seed }
  | .league => do
    let first ← fixtures p.teams "leg1"
    let twice ← operand (Value.relate .gt p.legs (.int 1))
    let ms := if twice then first ++ returnLeg first else first
    return { format := .league, fixtures := ms, seed := seed }
  | .groupsPlusKnockout => do
    let (g, per) ← Shape.groupLayout p.teams p.groupCount
    let playoff ← singleElimination (← operand (Value.times g p.advancing)) p.thirdPlace seed
    return { format := .groupsPlusKnockout, groupCount := .int g, teamsPerGroup := .int per,
             advancing := p.advancing, rounds := playoff.rounds,
             thirdPlace := p.thirdPlace, seed := seed }

/-- The team of a slot among a group's teams, null outside them. -/
def slotTeam (teams : List String) (slot : Value) : Value :=
  match slot with
  | .int s => if s < 0 then .null else ((teams[s.toNat]?).map Value.str).getD .null
  | _ => .null

/-- The round robin fixtures of one drawn group, with its teams in their slots. -/
def groupFixtures (letter : String) (teams : List String) : List Match :=
  if teams.length < 2 then []
  else match fixtures teams.length s!"group_{letter}" with
    | .ok ms => ms.map fun m =>
      { m with groupLetter := .str letter, team1 := slotTeam teams m.slot1,
               team2 := slotTeam teams m.slot2 }
    | .error _ => []

end Generate

end TournamentDraw

namespace TournamentDraw

/-- The format with a name, refused if there is none. -/
def Format.parse (s : String) : Except BracketError Format :=
  match Format.ofName? s with
  | some f => .ok f
  | none => .error (.unknownFormat (.str s))

/-- The competition of the named format for a plan. A plan without a seed (or with an empty
one) takes competition seed `issued + 1`; the second component is the number of seeds issued
afterwards. An unknown format is refused before a seed is taken. -/
def Bracket.generate (name : String) (p : Plan) (issued : Nat) :
    Except BracketError Bracket × Nat :=
  match Format.parse name with
  | .error e => (.error e, issued)
  | .ok fmt =>
    if named p.seed then (Generate.build fmt p, issued)
    else (Generate.build fmt { p with seed := some (Seed.competition (issued + 1)) }, issued + 1)

end TournamentDraw
