import TournamentDraw.Bracket.Basic
import TournamentDraw.Bracket.Error

/-!
# Playing a knockout draw

A step on a competition may be refused part-way through; what it changed before the refusal
stays, so a step is a state transformer that can fail (`Step`).

When a knockout match is decided its winner and loser move along the match's links. A team
moving into a match takes the side its origin prefers (winners-bracket teams take the first
side of the grand final, teams dropping into the losers bracket face a survivor from the
second side, halving rounds alternate sides) and else the first free side; a match whose two
sides are taken refuses it. A match that then has a team facing the bye is decided at once,
and so on down the links. Changing a result first takes the old winner and loser back out of
the matches they moved into, which is refused once one of those has been played.
-/

namespace TournamentDraw

/-- A change of a competition that may be refused part-way, keeping what it did until then. -/
abbrev Step := ExceptT BracketError (StateM Bracket)

namespace Step

/-- The knockout match at a place. -/
def matchAt (p : Pos) : Step Match := do
  return ((← get).matchAt? p).getD default

/-- Change the knockout match at a place. -/
def update (p : Pos) (f : Match → Match) : Step Unit :=
  modify fun b => b.modifyAt p f

/-- The place of the last knockout match with an id, refused if there is none or if the id
cannot be a key. -/
def locate (id : Value) : Step Pos := do
  match id with
  | .list _ | .obj _ => throw (.operand (.unsupported s!"unhashable type: '{id.kindName}'"))
  | _ => pure ()
  match (← get).locate? id with
  | some p => pure p
  | none => throw (.unknownMatch id.describe)

/-- A relation between two values, refused for kinds that have no order. -/
def relate (r : Relation) (a b : Value) : Step Bool :=
  match Value.relate r a b with
  | .ok x => pure x
  | .error e => throw (.operand e)

/-- Refuse a value that cannot be a key: lists and objects. -/
def keyable (v : Value) : Step Unit :=
  match v with
  | .list _ | .obj _ => throw (.operand (.unsupported s!"unhashable type: '{v.kindName}'"))
  | _ => pure ()

/-- Refuse a competition whose knockout matches cannot be looked up by id: every knockout id
must be able to be a key. -/
def knockoutKeys : Step Unit := do
  for x in (← get).knockoutPlaces do keyable x.2.id

/-- Whether an id is the id of a knockout match; the knockout ids and the id asked for must be
able to be keys. -/
def isKnockout (id : Value) : Step Bool := do
  knockoutKeys
  keyable id
  return ((← get).locate? id).isSome

/-- The knockout round at an index. -/
def roundAt (i : Nat) : Step Round := do
  return ((← get).rounds[i]?).getD default

end Step

/-- A side of a match. -/
inductive Side where
  | first
  | second
  deriving Repr, DecidableEq

/-- The side by the parity of a match index: even indices feed the first side. -/
def Side.ofIndex (i : Nat) : Side :=
  if i % 2 = 0 then .first else .second

/-- The side a team coming from match `i` of round `src` prefers in a match of round `tgt`. -/
def preferredSide (src : Round) (i : Nat) (tgt : Round) : Side :=
  if tgt.lane = some .grandFinal then
    if src.lane = some .winners then .first else .second
  else if tgt.lane = some .losers ∧ src.lane = some .winners then
    if src.games.length > tgt.games.length then Side.ofIndex i else .second
  else if tgt.games.length < src.games.length then Side.ofIndex i
  else .first

/-- The match with `team` on a side. -/
def Match.seatOn (m : Match) (team : Value) : Side → Match
  | .first => { m with team1 := team }
  | .second => { m with team2 := team }

/-- The side a team moving into `m` takes, preferring `side`; none if both are taken. A side
is free while it holds null. -/
def Match.freeSide? (m : Match) (side : Side) : Option Side :=
  match side, m.team1.isNull, m.team2.isNull with
  | .first, true, _ => some .first
  | .second, _, true => some .second
  | _, true, _ => some .first
  | _, _, true => some .second
  | _, _, _ => none

/-- The team that goes through a match facing the bye, if the match is open, has both
sides and one of them is the bye. -/
def Match.byeWinner? (m : Match) : Option Value :=
  if m.isCompleted ∨ m.team1.isNull ∨ m.team2.isNull then none
  else if m.team1.eqv (.str byeTeam) then some m.team2
  else if m.team2.eqv (.str byeTeam) then some m.team1
  else none

namespace Step

/-- The winner by the scores: the side with more goals, null when level or a score is null.
Scores of kinds that have no order are refused. -/
def scoreWinner (m : Match) (s1 s2 : Value) : Step Value := do
  if s1.isNull ∨ s2.isNull then return .null
  if ← relate .gt s1 s2 then return m.team1
  if ← relate .gt s2 s1 then return m.team2
  return .null

/-- Move `team` out of the match `source` into the knockout match `target`; answers the place
it moved to. -/
def seat (source target team : Value) : Step Pos := do
  let sp ← locate source
  let tp ← locate target
  let src ← roundAt sp.round
  let tgt ← roundAt tp.round
  let t ← matchAt tp
  match t.freeSide? (preferredSide src sp.index tgt) with
  | some side => update tp (·.seatOn team side); return tp
  | none => throw (.full t.id.describe)

/-- Decide the knockout match at `p` for `winner` and move both teams along the links. The
fuel bounds the chain of byes decided on the way; each link decides a match not yet decided.
A link is followed when both it and the team moving along it are true values. -/
def settle : Nat → Pos → Value → Step Unit
  | 0, _, _ => pure ()
  | fuel + 1, p, winner => do
    let m ← matchAt p
    let loser := if winner.eqv m.team1 then m.team2 else m.team1
    update p fun m => { m with winner := winner, loser := loser, status := .completed }
    let follow (target team : Value) : Step Unit := do
      if target.truthy ∧ team.truthy then
        let tp ← seat m.id target team
        match (← matchAt tp).byeWinner? with
        | some w =>
          update tp fun m => { m with autoAdvance := .bool true }
          settle fuel tp w
        | none => pure ()
    follow m.next winner
    follow m.loserNext loser

/-- Fuel enough for any chain of decisions: one more than the knockout matches. -/
def fuel : Step Nat := do
  return (← get).knockoutCount + 1

/-- Decide the knockout match at `p` if one of its teams faces the bye. -/
def resolveByeAt (p : Pos) : Step Unit := do
  match (← matchAt p).byeWinner? with
  | some w =>
    update p fun m => { m with autoAdvance := .bool true }
    settle (← fuel) p w
  | none => pure ()

/-- Decide every match against the bye, round by round. -/
def resolveByes : Step Unit := do
  knockoutKeys
  for x in (← get).knockoutPlaces do
    resolveByeAt x.1

/-- Take the winner and loser of the decided match at `p` back out of the matches they moved
into, refused if one of those has been played. -/
def withdraw (p : Pos) : Step Unit := do
  let m ← matchAt p
  let mut moved : List (Pos × Value) := []
  for (target, team) in [(m.next, m.winner), (m.loserNext, m.loser)] do
    if target.truthy ∧ team.truthy then
      let tp ← locate target
      let tm ← matchAt tp
      if tm.isCompleted then throw (.alreadyPlayed m.id.describe tm.id.describe)
      moved := moved ++ [(tp, team)]
  for (tp, x) in moved do
    update tp fun t =>
      if t.team1.eqv x then { t with team1 := .null }
      else if t.team2.eqv x then { t with team2 := .null }
      else t
  update p fun m => { m with winner := .null, loser := .null, manualWinner := .null,
                             manualOverride := .bool false }

/-- The match at a reference. -/
def matchOf (r : MatchRef) : Step Match := do
  return ((← get).get? r).getD default

/-- Change the match at a reference. -/
def updateRef (r : MatchRef) (f : Match → Match) : Step Unit :=
  modify fun b => b.modify f r

end Step

/-- A result to record: the two scores, the team that goes through and the state to set, each
a value of any kind; null stands for one left out. -/
structure Result where
  score1 : Value := .null
  score2 : Value := .null
  advancing : Value := .null
  status : Value := .null
  deriving Repr, Inhabited

namespace Step

/-- The state a result sets: the one named, which must be the name of a state, else completed
when both scores are known or a team goes through, else the match's own. -/
def resultStatus (m : Match) (r : Result) (s1 s2 : Value) : Step Status :=
  match r.status with
  | .null =>
    pure (if !s1.isNull ∧ !s2.isNull then .completed
      else if !r.advancing.isNull then .completed else m.status)
  | .str s =>
    match Status.ofName? s with
    | some st => pure st
    | none => throw (.unknownStatus r.status)
  | v => throw (.unknownStatus v)

/-- A score given with a result, or the match's own when none is given. -/
def mergedScore (given own : Value) : Value :=
  if given.isNull then own else given

/-- Record a result for the first match with the id, and for a knockout match move its
winner and loser on. The team that goes through is the one named, if it is a true value, else
the winner by the scores. A knockout match needs both teams and a winner to be completed; a
changed result of a decided knockout match is first withdrawn. -/
def record (id : Value) (r : Result) : Step Match := do
  let b ← get
  let some ref := b.findRef? id | throw (.unknownMatch id.describe)
  let m := (b.get? ref).getD default
  let knockout ← isKnockout id
  if !r.advancing.isNull ∧ !m.plays r.advancing then
    throw (.notPlaying r.advancing.describe id.describe)
  let s1 := mergedScore r.score1 m.score1
  let s2 := mergedScore r.score2 m.score2
  let status ← resultStatus m r s1 s2
  let byScore ← scoreWinner m s1 s2
  let winner : Value := if r.advancing.truthy then r.advancing else byScore
  if knockout ∧ status = .completed then
    if m.team1.isNull ∨ m.team2.isNull then throw (.missingTeams id.describe)
    if winner.isNull then throw (.level id.describe)
  if knockout ∧ m.isCompleted then
    if let .knockout p := ref then withdraw p
  updateRef ref fun m => { m with score1 := s1, score2 := s2, status := status }
  if status ≠ .completed then return ← matchOf ref
  if !knockout then
    updateRef ref fun m =>
      { m with winner := winner,
               loser := if winner.truthy then (if winner.eqv m.team1 then m.team2 else m.team1)
                 else m.loser }
    return ← matchOf ref
  if !byScore.isNull ∧ !r.advancing.isNull ∧ !r.advancing.eqv byScore then
    updateRef ref fun m => { m with manualWinner := r.advancing, manualOverride := .bool true }
  if let .knockout p := ref then
    settle (← fuel) p winner
  matchOf ref

/-- Force the winner of a match: recorded as completed with `team` going through, and marked
as set by hand. -/
def forceWinner (id team : Value) : Step Match := do
  let some m := (← get).find? id | throw (.unknownMatch id.describe)
  if !m.plays team then throw (.notPlaying team.describe id.describe)
  let _ ← record id { advancing := team, status := .str "COMPLETED" }
  let some ref := (← get).findRef? id | throw (.unknownMatch id.describe)
  updateRef ref fun m => { m with manualWinner := team, manualOverride := .bool true }
  matchOf ref

end Step

end TournamentDraw
