import TournamentDraw.Store.Basic
import TournamentDraw.Service.Error
import TournamentDraw.Text.Case
import TournamentDraw.Seed

/-!
# Who may act on a tournament

A request names its acting user and role, both optional. Reading needs only the tournament
to exist. Changing it needs either no acting user and role at all, or the administrator role
(in any case), or the tournament's organizer as the acting user. A missing tournament is
reported before the user is checked. Every text a request gives the store must be one that
UTF-8 can write.

A service request runs on the store as it goes (`Txn`): what it has written stays written, also
when it is refused later, unless it wrote inside `Txn.atomically`, which puts the tables back
as they were when it is refused there, as a rolled back session does. Seeds issued on the way
stay issued, and so do the row ids and clock stamps handed out, as a row is numbered before it
is written.
-/

namespace TournamentDraw

/-- The acting user of a request. -/
structure Actor where
  user : Option String := none
  role : Option String := none
  deriving Repr, DecidableEq, Inhabited

/-- Whether the actor holds the administrator role, in any case. -/
def Actor.isAdmin (a : Actor) : Bool :=
  Text.upper (a.role.getD "") == "ADMIN"

/-- A request on the store: refused as a whole, or done with its changes; either way it may
have issued seeds and handed out numbers. -/
abbrev Txn := ExceptT ServiceError (StateT Store (StateM Seed.Issued))

namespace Txn

/-- Refuse the request. -/
def refuse {α : Type} (e : ServiceError) : Txn α :=
  throw e

/-- Refuse the request when `c` holds. -/
def refuseIf (c : Bool) (e : ServiceError) : Txn Unit :=
  if c then refuse e else pure ()

/-- A value computed for the request, or its refusal. -/
def ofExcept {α : Type} (r : Except ServiceError α) : Txn α :=
  match r with
  | .ok a => pure a
  | .error e => refuse e

/-- Write drawn groups of a tournament, answering them. -/
def writeGroups (tid : String) (dealt : List (List String)) : Txn (List Group) := do
  let (saved, s) := (← get).writeGroups tid dealt
  set s
  return saved

/-- An operation on values inside a service request, its refusal passed on. -/
def operand {α : Type} (r : Except OperandError α) : Txn α :=
  match r with
  | .ok a => pure a
  | .error e => refuse (.operand e)

/-- A value used as a count, refused unless it is an integer or a truth value. -/
def count (v : Value) : Txn Nat :=
  match v with
  | .int n => pure n.toNat
  | .bool b => pure (if b then 1 else 0)
  | v => refuse (.operandType s!"'{v.kindName}' object cannot be interpreted as an integer")

/-- Accept what the store says of a value it keeps, or refuse the request with its refusal. -/
def cell {α : Type} (r : Except CellFault α) : Txn α :=
  match r with
  | .ok a => pure a
  | .error f => refuse (.cell f)

/-- Refuse the request if the store cannot be given these texts, to keep or to look for: the
first one that UTF-8 cannot write is named. -/
def bound (texts : List String) : Txn Unit :=
  cell (Cell.writable texts)

/-- The tournament with an id, refused if there is none. -/
def tournament (tid : String) : Txn Tournament := do
  bound [tid]
  match (← get).tournament? tid with
  | some t => pure t
  | none => refuse .tournamentNotFound

/-- The tournament, checked for the actor to be allowed the act. -/
def authorize (tid : String) (actor : Actor) (act : Action) : Txn Tournament := do
  let t ← tournament tid
  if actor.user.isNone ∧ actor.role.isNone then return t
  if t.organizer ≠ actor.user ∧ !actor.isAdmin then refuse (.forbidden act)
  return t

/-- A fresh competition seed. -/
def freshCompetitionSeed : Txn String := do
  let i ← getThe Seed.Issued
  set { i with competition := i.competition + 1 }
  return Seed.competition (i.competition + 1)

/-- A fresh draw seed. -/
def freshDrawSeed : Txn String := do
  let i ← getThe Seed.Issued
  set { i with draw := i.draw + 1 }
  return Seed.draw (i.draw + 1)

/-- Run a block as one transaction: when it is refused, the tables are put back as they were
before it, the numbers it handed out staying used, and the refusal is passed on. -/
def atomically {α : Type} (t : Txn α) : Txn α := do
  let before ← get
  try t
  catch e =>
    modify before.rollback
    throw e

/-- Run a request on a store: its answer or its refusal, the store it leaves, and the seeds
issued. -/
def exec {α : Type} (t : Txn α) (s : Store) (i : Seed.Issued) :
    Except ServiceError α × Store × Seed.Issued :=
  let ((r, s'), i') := ((t.run).run s).run i
  (r, s', i')

end Txn

end TournamentDraw
