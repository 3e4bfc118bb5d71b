import TournamentDraw.Bracket.Play
import TournamentDraw.Standings
import TournamentDraw.Value.Sort

/-!
# Placing teams

Teams in seed order go into a generated competition. In a knockout draw the bye matches of the
first round take the top seeds, and the remaining teams meet best against worst; byes are then
decided at once. Fixtures with slots take the team of their slot.

Group qualifiers go into the first knockout round. With an even number of groups, two
qualifiers from each, full groups and no byes, winners and runners-up are crossed so that
two group winners cannot meet before the semi-finals (`1A v 2B`, `1C v 2D`, …, then `2A v 1B`,
`2C v 1D`, …); otherwise the qualifiers are ordered by group position, stably, and placed as
seeds.
-/

namespace TournamentDraw

namespace Step

/-- An operation on values inside a step, its refusal passed on. -/
def operand {α : Type} (r : Except OperandError α) : Step α :=
  match r with
  | .ok a => pure a
  | .error e => throw (.operand e)

/-- The team at an index of a list, null outside it. -/
def teamAt (teams : List Value) (i : Int) : Value :=
  if i < 0 then .null else (teams[i.toNat]?).getD .null

/-- The team of a fixture slot: null when the slot is outside the list. A slot compares
with the list's bounds as a value, and must then be a whole number. -/
def slotTeam (teams : List Value) (slot : Value) : Step Value := do
  if !(← operand (Value.relate .le (.int 0) slot)) then return .null
  if !(← operand (Value.relate .lt slot (.int teams.length))) then return .null
  match slot with
  | .int i => return teamAt teams i
  | .bool b => return teamAt teams (if b then 1 else 0)
  | v => throw (.operand (.unsupported
      s!"list indices must be integers or slices, not {v.kindName}"))

/-- Place teams in seed order into the first knockout round and the fixture slots. -/
def placeTeams (teams : List Value) : Step Unit := do
  let b ← get
  if !b.rounds.isEmpty ∧ b.format ≠ .groupsOnly then
    let first := ((b.rounds.head?.map (·.games)).getD []).zipIdx
    let byes := (first.filter (·.1.isBye)).map (·.2)
    let playing := (first.filter (!·.1.isBye)).map (·.2)
    let room := byes.length + 2 * playing.length
    if teams.length > room then throw (.noRoom room teams.length)
    for (i, t) in byes.zip teams do
      update ⟨0, i⟩ fun m => { m with team1 := t }
    let rest := teams.drop byes.length
    for (i, k) in playing.zipIdx do
      let j : Int := rest.length - 1 - k
      update ⟨0, i⟩ fun m =>
        { m with team1 := teamAt rest k, team2 := if j ≤ k then .null else teamAt rest j }
    resolveByes
  for i in List.range (← get).fixtures.length do
    let m ← matchOf (.fixture i)
    if !m.slot1.isNull then
      let t ← slotTeam teams m.slot1
      updateRef (.fixture i) fun m => { m with team1 := t }
    if !m.slot2.isNull then
      let t ← slotTeam teams m.slot2
      updateRef (.fixture i) fun m => { m with team2 := t }

/-- The pairings of crossed groups: winners against the next group's runner-up, then
runners-up against the next group's winner. -/
def crossPairs (winners seconds : List Value) (groups : Nat) : List (Value × Value) :=
  let starts := (List.range groups).filter fun i => i % 2 = 0 ∧ i + 1 < groups
  starts.map (fun (i : Nat) => (teamAt winners i, teamAt seconds (i + 1 : Nat))) ++
    starts.map (fun (i : Nat) => (teamAt seconds i, teamAt winners (i + 1 : Nat)))

/-- The rows of a table that go through: the table cut at the qualifier count (a negative
count drops rows from the end, null keeps every row). -/
def qualifiedRows (rows : List Standing) (advancing : Value) : Step (List Standing) := do
  match ← operand advancing.sliceEnd? with
  | some k => return takeSigned rows k
  | none => return rows

/-- Place the qualifiers of group tables, given in group order, into the first knockout round. -/
def seedGroups (tables : List (List Standing)) (advancing : Value) : Step Unit := do
  let b ← get
  match b.rounds.head? with
  | none => pure ()
  | some first =>
    let qualified := (← tables.mapM (qualifiedRows · advancing)).flatten
    let winners := (qualified.filter (·.position.eqv (.int 1))).map (·.team)
    let runners := qualified.filter (!·.position.eqv (.int 1))
    let g := tables.length
    let crossable := g ≥ 2 ∧ g % 2 = 0 ∧ advancing.eqv (.int 2) ∧ tables.all (·.length ≥ 2) ∧
      !first.games.any (·.isBye)
    if !crossable then
      let ordered ← operand (sortWith (fun a b => Value.relate .lt a.position b.position) runners)
      placeTeams (winners ++ ordered.map (·.team))
    else
      let pairs := crossPairs winners (runners.map (·.team)) g
      for (i, (t1, t2)) in (List.range first.games.length).zip pairs do
        update ⟨0, i⟩ fun m =>
          { m with team1 := if t1.truthy then t1 else m.team1,
                   team2 := if t2.truthy then t2 else m.team2 }

end Step

end TournamentDraw
