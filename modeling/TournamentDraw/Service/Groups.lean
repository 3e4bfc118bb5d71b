import TournamentDraw.Service.Access
import TournamentDraw.Service.Settings
import TournamentDraw.Draw.Shuffle
import TournamentDraw.Draw.Deal
import TournamentDraw.Standings

/-!
# Drawing and editing groups

The random draw shuffles the approved teams of a published or ongoing tournament with its
seed (a fresh draw seed when none is given) and deals them around the groups `A, B, …`;
the seed is kept with the tournament so the draw can be repeated. Groups can also be rebuilt
from moves of teams between letters, created one by one, edited, or reset together with the
draw.
-/

namespace TournamentDraw

/-- A team of a group as shown: its id, and its club and coach when it is registered. -/
structure TeamView where
  id : String
  club : Option String
  coach : Option String
  deriving Repr, DecidableEq

/-- A group with the club and coach of each team. -/
structure GroupView where
  group : Group
  teams : List TeamView
  deriving Repr

/-- A requested move of a team into a group; a field may be missing from the request, and the
letter may be null. -/
structure Move where
  registration : Option String
  letter : Option (Option String)
  deriving Repr, DecidableEq

namespace Store

/-- Give registrations new group letters, one change after another. -/
def reletter (s : Store) (changes : List (String × Option String)) : Store :=
  changes.foldl (fun s c => s.modifyRegistration c.1 fun r => { r with group := c.2 }) s

/-- The letters the approved teams of a tournament hold, each once, in letter order. -/
def heldLetters (s : Store) (tid : String) : List String :=
  (firstOccurrences ((s.approvedOf tid).filterMap fun r =>
    if named r.group then r.group else none)).mergeSort (· ≤ ·)

/-- Rebuild the groups of a tournament from the letters its approved teams hold: one group per
letter, in letter order and placed `1, 2, …`, with the approved teams holding the letter. -/
def regroup (s : Store) (tid : String) : List Group × Store :=
  (s.heldLetters tid).zipIdx.foldl (fun (acc : List Group × Store) x =>
    let (g, s') := acc.2.addGroup tid x.1
      (((s.approvedOf tid).filter (·.group == some x.1)).map (·.id)) (.int (x.2 + 1))
    (acc.1 ++ [g], s')) ([], s.deleteGroups tid)

/-- Edit a group of a tournament: teams leaving it lose its old letter if they still hold it,
the group takes its new teams and letter, and its teams take the letter. -/
def editGroup (s : Store) (tid : String) (g : Group) (teams : List String) (letter : String) :
    Store :=
  let s := g.teams.foldl (fun s id =>
    if !teams.contains id then
      match s.registrationIn? tid id with
      | some r =>
        if r.group = some g.letter then s.modifyRegistration r.id fun r => { r with group := none }
        else s
      | none => s
    else s) s
  let s := s.modifyGroup g.id fun g => { g with teams := teams, letter := letter }
  teams.foldl (fun s id =>
    match s.registrationIn? tid id with
    | some r => s.modifyRegistration r.id fun r => { r with group := some letter }
    | none => s) s

end Store

namespace Txn

/-- The tournament states in which a draw can run. -/
def drawable (status : String) : Bool :=
  status == "PUBLISHED" || status == "ONGOING"

/-- Draw the approved teams of a tournament into groups. The number of groups is a value: it
is compared with the bounds and only then must be a count. The seed is kept with the
tournament, so it must be a text the store can keep. The old groups are removed before the
last checks, so the whole draw is one transaction. -/
def executeDraw (cfg : Value) (tid : String) (actor : Actor) (groups : Value)
    (seed : Option String) : Txn (List Group) := atomically do
  let t ← authorize tid actor .executeDraw
  refuseIf t.drawCompleted .drawDone
  refuseIf (!drawable t.status) .notOpen
  let regs := (← get).approvedOf tid
  refuseIf (regs.length < 2) .tooFewForDraw
  let size ← ofExcept (setting cfg "default_group_size" (.int 4))
  let wanted ← (if !groups.isNull then pure groups
    else ofExcept ((groupsFor regs.length size).map Value.int))
  refuseIf (← operand (Value.relate .gt wanted (.int regs.length))) .moreGroupsThanTeams
  refuseIf (← operand (Value.relate .lt wanted (.int 1))) .groupCountRange
  refuseIf (← operand (Value.relate .gt wanted (.int 26))) .groupCountRange
  let seed ← (if named seed then pure (seed.getD "") else freshDrawSeed)
  let shuffled := Draw.seededShuffle regs seed
  modify fun s => (s.deleteGroups tid).clearGroupLetters tid
  let n ← count wanted
  -- the tournament row, which keeps the seed, is written before the groups are numbered
  bound [seed]
  let saved ← writeGroups tid ((List.range n).map fun k => (Draw.dealtTo shuffled n k).map (·.id))
  modify fun s => s.modifyTournament tid fun t =>
    { t with drawCompleted := true, drawSeed := some seed }
  return saved

/-- A group with the club and coach of each of its teams. -/
def viewGroup (s : Store) (tid : String) (g : Group) : GroupView :=
  let regs := s.registrationsOf tid
  { group := g, teams := g.teams.map fun id =>
      match regs.find? (·.id == id) with
      | some r => { id := id, club := some r.club, coach := r.coach }
      | none => { id := id, club := none, coach := none } }

/-- The groups of a tournament in display order, with their teams' clubs and coaches. -/
def groupViews (tid : String) : Txn (List GroupView) := do
  let _ ← tournament tid
  let s ← get
  return (s.groupsOf tid).map (viewGroup s tid)

/-- The value an option holds, or the refusal. -/
def found {α : Type} (o : Option α) (err : ServiceError) : Txn α :=
  match o with
  | some a => pure a
  | none => refuse err

/-- The approved teams regrouped by their letters: one group per letter, in letter order. -/
def regroup (tid : String) : Txn (List Group) :=
  modifyGet (·.regroup tid)

/-- A requested move checked: the registration of the tournament it names, and its letter. -/
def checkMove (tid : String) (m : Move) : Txn (String × Option String) := do
  let rid ← found m.registration (.missingField "registration_id")
  bound [rid]
  let r ← found ((← get).registrationIn? tid rid) (.registrationNotFound rid)
  let letter ← found m.letter (.missingField "group_letter")
  refuseIf (!named letter) .emptyLetter
  return (r.id, letter)

/-- Move teams between group letters by hand, then rebuild the groups. The moves are checked
first; the letters and groups are then written as one transaction. -/
def moveTeams (tid : String) (actor : Actor) (moves : List Move) : Txn (List Group) := do
  let _ ← authorize tid actor .updateBracket
  let changes ← moves.mapM (checkMove tid)
  atomically do
    modify (·.reletter changes)
    -- the new letters are written before the approved teams are read again, row by row in
    -- the order of the registration ids
    bound ((changes.mergeSort fun a b => decide (a.1 ≤ b.1)).filterMap (·.2))
    regroup tid

/-- Undo the draw: no groups, no group letters, no seed. -/
def resetDraw (tid : String) (actor : Actor) : Txn Unit := do
  let _ ← authorize tid actor .resetDraw
  atomically <| modify fun s => ((s.deleteGroups tid).clearGroupLetters tid).modifyTournament tid
    fun t => { t with drawCompleted := false, drawSeed := none }

/-- Refuse the request unless every listed team is a registration of the tournament. -/
def checkTeams (tid : String) (ids : List String) : Txn Unit :=
  ids.forM fun id => do
    bound [id]
    refuseIf ((← get).registrationIn? tid id).isNone (.registrationNotFound id)

/-- Create one group by hand. Its display order is kept as its integer column keeps it; the
group is numbered before the order is written, so a refused order still uses up its id. -/
def createGroup (tid : String) (actor : Actor) (letter : String) (teams : List String)
    (order : Value) : Txn Group := do
  let _ ← authorize tid actor .createGroups
  bound [letter]
  refuseIf ((← get).groupByLetter? tid letter).isSome (.letterTaken letter)
  checkTeams tid teams
  let number ← modifyGet Store.groupNumber
  let order ← cell order.integerCell
  let g : Group := { id := number.1, tournament := tid, letter := letter, order := order,
                     teams := teams, stamp := number.2 }
  modify (·.insertGroup g)
  return g

/-- Refuse a new letter for a group that is empty or that another group of the tournament
has; the group's own letter is always allowed. -/
def checkLetter (tid : String) (g : Group) (letter : Option String) : Txn Unit :=
  match letter with
  | some l =>
    if l ≠ g.letter then do
      refuseIf l.isEmpty .emptyLetter
      bound [l]
      refuseIf ((← get).groupByLetter? tid l).isSome (.letterTaken l)
    else pure ()
  | none => pure ()

/-- Refuse a new team list that names a team twice or a team not registered in the
tournament. -/
def checkNewTeams (tid : String) (teams : Option (List String)) : Txn Unit :=
  match teams with
  | some ts => do
    refuseIf ((firstOccurrences ts).length ≠ ts.length) .listedTwice
    checkTeams tid ts
  | none => pure ()

/-- Edit a group: its teams, its letter, or both. Its members take its letter; teams taken
out of it lose the old letter. -/
def updateGroup (tid gid : String) (actor : Actor) (teams : Option (List String))
    (letter : Option String) : Txn Group := do
  let _ ← authorize tid actor .updateGroups
  bound [gid]
  let g ← found ((← get).groupIn? tid gid) .groupNotFound
  checkLetter tid g letter
  checkNewTeams tid teams
  atomically do
    modify fun s => s.editGroup tid g (teams.getD g.teams)
      (if named letter then letter.getD g.letter else g.letter)
    found ((← get).groupIn? tid gid) .groupNotFound

end Txn

end TournamentDraw
