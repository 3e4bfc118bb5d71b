import TournamentDraw.Bracket.Encode
import TournamentDraw.Value.Json
import TournamentDraw.Store.Cell
import TournamentDraw.Draw.Deal

/-!
# The tournament store

The store holds five tables: tournaments, the teams registered for them, their groups, the
pot each team is drawn from, and the stored competitions, each kept as JSON text and read back
from it. Rows are kept in the order they
were inserted. A row inserted without an id gets the table's prefix and its next number
(`t1`, `r1`, `g1`, `p1`, `b1`), and every insert is stamped by one clock, so that rows can be
read back in insertion order wherever the store is read by time. Counters and clock survive
emptying the tables.
-/

namespace TournamentDraw

/-- A tournament. -/
structure Tournament where
  id : String
  name : String
  organizer : Option String := none
  status : String := "PUBLISHED"
  drawCompleted : Bool := false
  drawSeed : Option String := none
  deriving Repr, DecidableEq, Inhabited

/-- A team registered for a tournament. -/
structure Registration where
  id : String
  tournament : String
  club : String
  coach : Option String := none
  status : String := "PENDING"
  group : Option String := none
  stamp : Nat := 0
  deriving Repr, DecidableEq, Inhabited

/-- A group of a tournament: its letter, display order and teams. The display order is the
value its integer column keeps (`Value.integerCell`). -/
structure Group where
  id : String
  tournament : String
  letter : String
  order : Value
  teams : List String
  stamp : Nat := 0
  deriving Repr, Inhabited

/-- The pot a registration is drawn from. -/
structure PotEntry where
  id : String
  tournament : String
  registration : String
  pot : Int
  stamp : Nat := 0
  deriving Repr, DecidableEq, Inhabited

/-- The stored competition of a tournament, or of one of its age groups: its format, and the
competition's record written as JSON text. -/
structure StoredBracket where
  id : String
  tournament : String
  ageGroup : Option String
  format : Format
  text : String
  stamp : Nat := 0
  deriving Repr, Inhabited

/-- The JSON text a competition is stored as: its record written out. -/
def Bracket.written (b : Bracket) : String :=
  Json.write b.toValue

/-- The competition a stored row holds, read back from its text: the JSON value of the text,
then the competition of that record. A text that is not JSON is refused at the position where
reading stopped. -/
def StoredBracket.data (b : StoredBracket) : Except ReadError Bracket :=
  match Json.read b.text with
  | .ok v => Bracket.ofValue v
  | .error e => .error (.badValue s!"Expecting value: line 1 column {e.pos + 1} (char {e.pos})")

/-- The rows of the five tables. -/
structure Tables where
  tournaments : List Tournament := []
  registrations : List Registration := []
  groups : List Group := []
  pots : List PotEntry := []
  brackets : List StoredBracket := []
  deriving Repr, Inhabited

/-- The numbers handed out so far: row ids per table and the insert clock. -/
structure Counters where
  tournaments : Nat := 0
  registrations : Nat := 0
  groups : Nat := 0
  pots : Nat := 0
  brackets : Nat := 0
  clock : Nat := 0
  deriving Repr, Inhabited

/-- A store: its tables and its counters. -/
structure Store where
  tables : Tables := {}
  counters : Counters := {}
  deriving Repr, Inhabited

/-- The texts of a tournament row, in the order of its columns. -/
def Tournament.texts (t : Tournament) : List String :=
  [t.id, t.name] ++ t.organizer.toList ++ [t.status] ++ t.drawSeed.toList

/-- The texts of a registration row, in the order of its columns. -/
def Registration.texts (r : Registration) : List String :=
  [r.id, r.tournament, r.club] ++ r.coach.toList ++ [r.status] ++ r.group.toList

/-- Whether group `a` comes before or with group `b` by display order, then letter, in the
store's order of kept values. -/
def Group.before (a b : Group) : Bool :=
  match Value.cellCompare a.order b.order with
  | .lt => true
  | .gt => false
  | .eq => Value.textCmp a.letter b.letter != .gt

namespace Store

/-- The next stamp of the clock. -/
def tick (s : Store) : Nat × Store :=
  let n := s.counters.clock + 1
  (n, { s with counters := { s.counters with clock := n } })

/-- The tables of a store with the counters of a later one: what a failed change leaves, since
the numbers it handed out are not handed out again. -/
def rollback (s later : Store) : Store :=
  { s with counters := later.counters }

/-- The first tournament with an id. -/
def tournament? (s : Store) (id : String) : Option Tournament :=
  s.tables.tournaments.find? (·.id == id)

/-- Insert a tournament; an id is numbered when none is given. -/
def addTournament (s : Store) (t : Tournament) (id? : Option String) : Tournament × Store :=
  let (id, c) := match id? with
    | some id => (id, s.counters)
    | none => (s!"t{s.counters.tournaments + 1}",
               { s.counters with tournaments := s.counters.tournaments + 1 })
  let s := { s with counters := c }
  let (_, s) := s.tick
  let t := { t with id := id }
  (t, { s with tables := { s.tables with tournaments := s.tables.tournaments ++ [t] } })

/-- Change every tournament with an id. -/
def modifyTournament (s : Store) (id : String) (f : Tournament → Tournament) : Store :=
  { s with tables := { s.tables with
    tournaments := s.tables.tournaments.map fun t => if t.id = id then f t else t } }

/-- Insert a registration; an id is numbered when none is given. -/
def addRegistration (s : Store) (r : Registration) (id? : Option String) :
    Registration × Store :=
  let (id, c) := match id? with
    | some id => (id, s.counters)
    | none => (s!"r{s.counters.registrations + 1}",
               { s.counters with registrations := s.counters.registrations + 1 })
  let s := { s with counters := c }
  let (n, s) := s.tick
  let r := { r with id := id, stamp := n }
  (r, { s with tables := { s.tables with registrations := s.tables.registrations ++ [r] } })

/-- The first registration with an id. -/
def registration? (s : Store) (id : String) : Option Registration :=
  s.tables.registrations.find? (·.id == id)

/-- The registration with an id, if it belongs to the tournament. -/
def registrationIn? (s : Store) (tid id : String) : Option Registration :=
  s.tables.registrations.find? fun r => r.id == id && r.tournament == tid

/-- The registrations of a tournament in registration order. -/
def registrationsOf (s : Store) (tid : String) : List Registration :=
  (s.tables.registrations.filter (·.tournament == tid)).mergeSort
    fun a b => a.stamp < b.stamp ∨ (a.stamp = b.stamp ∧ a.id ≤ b.id)

/-- The approved registrations of a tournament in registration order. -/
def approvedOf (s : Store) (tid : String) : List Registration :=
  (s.registrationsOf tid).filter (·.status == "APPROVED")

/-- Change every registration with an id. -/
def modifyRegistration (s : Store) (id : String) (f : Registration → Registration) : Store :=
  { s with tables := { s.tables with
    registrations := s.tables.registrations.map fun r => if r.id = id then f r else r } }

/-- Set the status of the first registration with an id; answers whether there was one. The
id is looked for and the status kept, so both must be texts the store can take. -/
def setStatus (s : Store) (rid status : String) : Except CellFault (Bool × Store) := do
  Cell.writable [rid]
  match s.registration? rid with
  | some r =>
    Cell.writable [status]
    return (true, s.modifyRegistration r.id fun r => { r with status := status })
  | none => return (false, s)

/-- Insert a tournament whose texts the store can keep; an id is numbered when none is
given, and stays used when the row is refused. -/
def insertTournament (s : Store) (t : Tournament) (id? : Option String) :
    Except CellFault Tournament × Store :=
  let (t, s') := s.addTournament t id?
  match Cell.writable t.texts with
  | .ok () => (.ok t, s')
  | .error f => (.error f, s.rollback s')

/-- Insert registrations in order, all of them or, when one has a text the store cannot keep,
none; the ids numbered up to the refused row stay used. -/
def insertRegistrations (s : Store) (rows : List (Registration × Option String)) :
    Except CellFault (List Registration) × Store :=
  let step (acc : Except CellFault (List Registration) × Store) (row : Registration × Option String) :=
    match acc with
    | (.error f, s') => (.error f, s')
    | (.ok done, s') =>
      let (r, s') := s'.addRegistration row.1 row.2
      match Cell.writable r.texts with
      | .ok () => (.ok (done ++ [r]), s')
      | .error f => (.error f, s')
  match rows.foldl step (.ok [], s) with
  | (.ok done, s') => (.ok done, s')
  | (.error f, s') => (.error f, s.rollback s')

/-- Remove the group letter of every registration of a tournament. -/
def clearGroupLetters (s : Store) (tid : String) : Store :=
  { s with tables := { s.tables with
    registrations := s.tables.registrations.map fun r =>
      if r.tournament = tid then { r with group := none } else r } }

/-- Hand out the next group id and clock stamp. -/
def groupNumber (s : Store) : (String × Nat) × Store :=
  let c := { s.counters with groups := s.counters.groups + 1 }
  let (n, s) := ({ s with counters := c } : Store).tick
  ((s!"g{c.groups}", n), s)

/-- Insert a group row. -/
def insertGroup (s : Store) (g : Group) : Store :=
  { s with tables := { s.tables with groups := s.tables.groups ++ [g] } }

/-- Insert a group with the next group id. -/
def addGroup (s : Store) (tid letter : String) (teams : List String) (order : Value) :
    Group × Store :=
  let ((id, n), s) := s.groupNumber
  let g : Group := { id := id, tournament := tid, letter := letter, order := order,
                     teams := teams, stamp := n }
  (g, s.insertGroup g)

/-- Give every listed registration a group letter. -/
def assignLetter (s : Store) (ids : List String) (letter : String) : Store :=
  ids.foldl (fun s rid => s.modifyRegistration rid fun r => { r with group := some letter }) s

/-- Write one drawn group after those before it: the group with the next group id, its letter
counted from `A` and its place counted from 1, and its teams given its letter. -/
def writeGroup (tid : String) (acc : List Group × Store) (x : List String × Nat) :
    List Group × Store :=
  let letter := Draw.groupLetter x.2
  let (g, s) := acc.2.addGroup tid letter x.1 (.int (x.2 + 1))
  (acc.1 ++ [g], s.assignLetter x.1 letter)

/-- Write drawn groups `A, B, …` in order, answering the groups written. -/
def writeGroups (s : Store) (tid : String) (dealt : List (List String)) : List Group × Store :=
  dealt.zipIdx.foldl (writeGroup tid) ([], s)

/-- The groups of a tournament by display order, then letter. -/
def groupsOf (s : Store) (tid : String) : List Group :=
  (s.tables.groups.filter (·.tournament == tid)).mergeSort Group.before

/-- The first group of a tournament with a letter. -/
def groupByLetter? (s : Store) (tid letter : String) : Option Group :=
  s.tables.groups.find? fun g => g.tournament == tid && g.letter == letter

/-- The group with an id, if it belongs to the tournament. -/
def groupIn? (s : Store) (tid id : String) : Option Group :=
  s.tables.groups.find? fun g => g.id == id && g.tournament == tid

/-- Change every group with an id. -/
def modifyGroup (s : Store) (id : String) (f : Group → Group) : Store :=
  { s with tables := { s.tables with
    groups := s.tables.groups.map fun g => if g.id = id then f g else g } }

/-- Delete the groups of a tournament. -/
def deleteGroups (s : Store) (tid : String) : Store :=
  { s with tables := { s.tables with groups := s.tables.groups.filter (·.tournament != tid) } }

/-- The pot entry of a registration in a tournament. -/
def potEntry? (s : Store) (tid rid : String) : Option PotEntry :=
  s.tables.pots.find? fun p => p.tournament == tid && p.registration == rid

/-- Put a registration into a pot: a new entry, or the existing one moved, keeping its id and
stamp. -/
def upsertPot (s : Store) (tid rid : String) (pot : Int) : PotEntry × Store :=
  match s.potEntry? tid rid with
  | some e =>
    let e := { e with pot := pot }
    (e, { s with tables := { s.tables with pots := s.tables.pots.map fun p =>
      if p.id = e.id then e else p } })
  | none =>
    let c := { s.counters with pots := s.counters.pots + 1 }
    let s := { s with counters := c }
    let (n, s) := s.tick
    let e : PotEntry := { id := s!"p{c.pots}", tournament := tid, registration := rid, pot := pot,
                          stamp := n }
    (e, { s with tables := { s.tables with pots := s.tables.pots ++ [e] } })

/-- The pot entries of a tournament by pot, then time, then registration. -/
def potsOf (s : Store) (tid : String) : List PotEntry :=
  (s.tables.pots.filter (·.tournament == tid)).mergeSort fun a b =>
    a.pot < b.pot ∨ (a.pot = b.pot ∧ (a.stamp < b.stamp ∨
      (a.stamp = b.stamp ∧ a.registration ≤ b.registration)))

/-- Delete the pot entries of a tournament, answering how many there were. -/
def deletePots (s : Store) (tid : String) : Nat × Store :=
  let n := (s.tables.pots.filter (·.tournament == tid)).length
  (n, { s with tables := { s.tables with pots := s.tables.pots.filter (·.tournament != tid) } })

/-- The stored competition of a tournament or one of its age groups. -/
def bracket? (s : Store) (tid : String) (age : Option String) : Option StoredBracket :=
  s.tables.brackets.find? fun b => b.tournament == tid && b.ageGroup == age

/-- Store a competition as its written text, replacing the one stored for the same tournament
and age group. -/
def saveBracket (s : Store) (tid : String) (age : Option String) (data : Bracket) : Store :=
  match s.bracket? tid age with
  | some b =>
    { s with tables := { s.tables with brackets := s.tables.brackets.map fun x =>
      if x.id = b.id then { x with format := data.format, text := data.written } else x } }
  | none =>
    let c := { s.counters with brackets := s.counters.brackets + 1 }
    let s := { s with counters := c }
    let (n, s) := s.tick
    let b : StoredBracket := { id := s!"b{c.brackets}", tournament := tid, ageGroup := age,
                               format := data.format, text := data.written, stamp := n }
    { s with tables := { s.tables with brackets := s.tables.brackets ++ [b] } }

/-- The store with every table emptied; counters and clock go on. -/
def clear (s : Store) : Store :=
  { s with tables := {} }

end Store

end TournamentDraw
