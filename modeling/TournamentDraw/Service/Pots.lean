import TournamentDraw.Service.Access
import TournamentDraw.Draw.Shuffle
import TournamentDraw.Draw.Deal

/-!
# Seeding pots and the pot draw

Organizers put every approved team into one of the four pots (1 is the strongest). The pot
draw shuffles each pot with a seed made of the tournament id and the pot number, then deals
the pots into groups, by the snake draft or strictly one team per pot and group, so that
drawing the same pots again gives the same groups.
-/

namespace TournamentDraw

-- Powers and sums of numbers are the core ones, with no other instance in scope taking over.
attribute [local instance (2000)] instPowNat Zero.ofOfNat0

/-- How full the pots are. -/
structure PotCheck where
  valid : Bool
  message : String
  counts : List (Nat × Nat)
  deriving Repr, DecidableEq

/-- A requested pot assignment; a field may be missing from the request, and the pot number
may be a value of any kind. -/
structure PotRequest where
  registration : Option String
  pot : Option Value
  deriving Repr

/-- The pots of a tournament as a pot draw reads them: for each pot number 1 to 4, the approved
registrations potted in it, in the order of their pot entries. -/
def Store.approvedPots (s : Store) (tid : String) : List (List String) :=
  [1, 2, 3, 4].map fun (p : Nat) =>
    (((s.potsOf tid).filter fun e => (s.approvedOf tid).any (·.id == e.registration)).filter
      (·.pot == (p : Int))).map (·.registration)

/-- Each pot shuffled with the seed made of the tournament id and its number. -/
def Draw.potShuffle (tid : String) (pots : List (List String)) : List (List String) :=
  pots.zipIdx.map fun (ms, i) => Draw.seededShuffle ms s!"{tid}{i + 1}"

namespace Txn

/-- Put an approved registration of the tournament into one of the pots 1 to 4: the pot
number must equal one of them, and the pot entry keeps that integer. -/
def putInPot (tid rid : String) (pot : Value) : Txn PotEntry := do
  bound [rid]
  let some r := (← get).registrationIn? tid rid | refuse .registrationNotInTournament
  if r.status != "APPROVED" then refuse .notApproved
  let some k := [1, 2, 3, 4].find? fun (k : Int) => pot.eqv (.int k) | refuse (.potNumber pot)
  let (e, s) := (← get).upsertPot tid rid k
  set s
  return e

/-- Put a registration into a pot, or move it to another pot. -/
def assignPot (tid rid : String) (pot : Value) (actor : Actor) : Txn PotEntry := do
  let _ ← authorize tid actor .managePots
  putInPot tid rid pot

/-- The pot entries of a tournament by pot number, all four pots present. -/
def potEntries (tid : String) : Txn (List (Nat × List PotEntry)) := do
  let _ ← tournament tid
  let entries := (← get).potsOf tid
  return [1, 2, 3, 4].map fun p => (p, entries.filter (·.pot == (p : Int)))

/-- Check the pot sizes: with an expected size that is a true value, every non-empty pot must
hold a count equal to it. -/
def checkPots (tid : String) (expected : Value) : Txn PotCheck := do
  let pots ← potEntries tid
  let counts := pots.map fun (p, es) => (p, es.length)
  let total := (counts.map (·.2)).sum
  if expected.truthy then
    if let some (_, c) := counts.find? fun (_, c) => !(Value.int c).eqv expected ∧ c ≠ 0 then
      return { valid := false, counts := counts,
               message := s!"Uneven pot distribution. Expected {expected.describe} per pot, got {c}" }
  return { valid := true, message := s!"Total teams assigned: {total}", counts := counts }

/-- Delete every pot entry of a tournament, answering how many there were. -/
def clearPots (tid : String) (actor : Actor) : Txn Nat := do
  let _ ← authorize tid actor .managePots
  let (n, s) := (← get).deletePots tid
  set s
  return n

/-- Whether `total` is a multiple of a number of groups: exactly, for an integer or a
binary64 number; never for not-a-number or an infinity. -/
def divides (groups : Value) (total : Nat) : Bool :=
  match groups with
  | .int n => (total : Int) % n = 0
  | .bool b => b
  | .float (.finite x) => let (a, d) := x.toFraction; a ≠ 0 ∧ ((total : Int) * d) % a = 0
  | _ => false

/-- Draw the groups of a tournament from its pots. The number of groups is a value: it is
compared with the bounds, checked to divide the teams in strict mode, and only then must be a
count. The draw is one transaction. -/
def potDraw (tid : String) (groups : Value) (strict : Bool) (actor : Actor) :
    Txn (List Group) := atomically do
  let t ← authorize tid actor .managePots
  refuseIf t.drawCompleted .drawDone
  let total := ((← get).approvedOf tid).length
  refuseIf (total = 0) .noTeams
  let most := min total 26
  refuseIf (← operand (Value.relate .lt groups (.int 2))) (.potGroupCount most)
  refuseIf (← operand (Value.relate .gt groups (.int most))) (.potGroupCount most)
  refuseIf (strict ∧ !divides groups total) (.notDivisible total groups)
  -- teams withdrawn or rejected after potting are not drawn
  let pots := (← get).approvedPots tid
  let assigned := (pots.map (·.length)).sum
  refuseIf (assigned ≠ total) (.unpotted assigned total)
  let groups ← count groups
  let dealt ← ofExcept ((Draw.distributePots strict (Draw.potShuffle tid pots) groups).mapError
    .refusedDeal)
  modify fun s => (s.deleteGroups tid).clearGroupLetters tid
  let saved ← writeGroups tid dealt
  modify fun s => s.modifyTournament tid fun t => { t with drawCompleted := true }
  return saved

end Txn

/-- One request of a bulk pot assignment, after those before it: a refusal stops the rest, a
request without both fields is refused, and every assignment is kept on its own. -/
def Store.assignPotStep (tid : String)
    (acc : Except ServiceError (List PotEntry) × Store × Seed.Issued) (q : PotRequest) :
    Except ServiceError (List PotEntry) × Store × Seed.Issued :=
  match acc with
  | (.error e, s, i) => (.error e, s, i)
  | (.ok done, s, i) =>
    match q.registration, q.pot with
    | none, _ => (.error (.missingField "registration_id"), s, i)
    | _, none => (.error (.missingField "pot_number"), s, i)
    | some rid, some pot =>
      match Txn.exec (Txn.putInPot tid rid pot) s i with
      | (.ok e, s, i) => (.ok (done ++ [e]), s, i)
      | (.error e, s, i) => (.error e, s, i)

/-- Apply pot assignments in order, each kept on its own: when one is refused, those before it
stay, and the refusal is the answer. -/
def Store.assignPots (s : Store) (i : Seed.Issued) (tid : String) (actor : Actor)
    (reqs : List PotRequest) : (Except ServiceError (List PotEntry)) × Store × Seed.Issued :=
  match Txn.exec (Txn.authorize tid actor .managePots) s i with
  | (.error e, s, i) => (.error e, s, i)
  | (.ok _, s, i) => reqs.foldl (Store.assignPotStep tid) (.ok [], s, i)

end TournamentDraw
